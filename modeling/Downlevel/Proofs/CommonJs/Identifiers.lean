import Downlevel.Proofs.CommonJs.ImportBindings

/-!
# Identifiers of written texts

The identifiers in the texts that a conversion writes, read from their lexemes. Names of properties
are left out: exports and imports can be called anything, also like a generated name. Apart from the
names that a text is written with, no identifier in it begins with an underscore.
-/

namespace Downlevel.CommonJs

open Script Text Lexeme

/-- Whether a word begins like a generated name. -/
def beginsGenerated (word : String) : Bool := word.toList.head? == some '_'

/-- The identifiers of a text whose strings are closed. -/
def identifiersOf (text : String) : List String :=
  ((lexemes? text.toList).map identifiers).getD []

/-- A text has closed strings, and of its identifiers only some of the given names begin like a
generated one. -/
def MentionsOnly (text : String) (names : List String) : Prop :=
  (lexemes? text.toList).isSome = true ∧
    ∀ n ∈ identifiersOf text, beginsGenerated n = true → n ∈ names

section Texts

variable {text name : String} {names : List String} {ls us : List Lexeme}

theorem LooksGenerated.beginsGenerated (h : LooksGenerated name) :
    beginsGenerated name = true := by
  rw [CommonJs.beginsGenerated, h.2]
  rfl

theorem identifiersOf_eq (h : lexemes? text.toList = some ls) :
    identifiersOf text = identifiers ls := by
  rw [identifiersOf, h]
  rfl

theorem mentionsOnly_of_lexemes (h : lexemes? text.toList = some ls)
    (hwords : ∀ n ∈ identifiers ls, beginsGenerated n = true → n ∈ names) :
    MentionsOnly text names := by
  rw [MentionsOnly, identifiersOf_eq h, h]
  exact ⟨rfl, hwords⟩

end Texts

/-! ## Statements for imports -/

namespace ImportStatement

/-- The identifiers of a statement that is not guarded, in their order. -/
def identifiers : ImportStatement → List String
  | effect _ => ["require"]
  | fields _ fs => "const" :: (fs.map Prod.snd ++ ["require"])
  | defaultOnly helper _ n => ["const", n, helper, "require"]
  | reference helper _ n bs =>
    "const" :: n :: helper :: "require" :: bs.flatMap fun b ↦ [b.localName, n]
  | guarded _ => []

variable {s : ImportStatement}

theorem identifiers_fieldLexemes {c : Char} (hc : c = '{' ∨ c = ',') (field : String × String) :
    identifiersBehind (some (.mark c)) (fieldLexemes field) = [field.2] := by
  unfold fieldLexemes
  rcases hc with rfl | rfl <;> split_ifs <;> rfl

theorem identifiers_bindingLexemes (reference : String) (b : RuntimeImport) :
    identifiersBehind (some (.mark ',')) (bindingLexemes reference b)
      = [b.localName, reference] := by
  cases b with
  | named imported n =>
    simp only [bindingLexemes, accessLexemes]
    split_ifs <;> rfl
  | _ => rfl

theorem identifiers_pattern (fs : List (String × String)) :
    identifiersBehind (some (.mark '{')) ([.mark ','].intercalate (fs.map fieldLexemes))
      = fs.map Prod.snd := by
  cases fs with
  | nil => rfl
  | cons f fs =>
    rw [List.map_cons, identifiersBehind_intercalate, identifiers_fieldLexemes (.inl rfl),
      List.map_cons, List.map_eq_flatMap]
    simp only [identifiers_fieldLexemes (.inr rfl), List.singleton_append]

theorem identifiers_lexemes (hguarded : s.isGuarded = false) :
    Lexeme.identifiers (s.lexemes ++ [.mark ';']) = s.identifiers := by
  have hend : identifiersBehind (some (.mark ';')) [] = [] := rfl
  rw [Lexeme.identifiers, identifiersBehind_append (by decide), hend, List.append_nil]
  cases s with
  | effect s => rfl
  | fields s fs =>
    have hfields := identifiersBehind_append (c := '}') (by decide) (some (.mark '{'))
      ([.mark ','].intercalate (fs.map fieldLexemes)) (.mark '=' :: callLexemes s)
    rw [identifiers_pattern] at hfields
    exact congrArg ("const" :: ·) hfields
  | defaultOnly helper s n => rfl
  | reference helper s n bs =>
    have hbindings := identifiersBehind_intercalate (bindingLexemes n) (some (.name "const"))
      (.name n :: .mark '=' :: .name helper :: .mark '(' :: (callLexemes s ++ [.mark ')'])) bs
    simp only [identifiers_bindingLexemes] at hbindings
    exact congrArg ("const" :: ·) hbindings
  | guarded text => cases hguarded

theorem identifiersOf_text (hwords : ∀ name ∈ s.names, Literal.IsWord name.toList)
    (hguarded : s.isGuarded = false) : identifiersOf s.text = s.identifiers :=
  (identifiersOf_eq (lexemes?_text hwords hguarded)).trans (identifiers_lexemes hguarded)

end ImportStatement

/-! ## Words of texts -/

/-- Whether a lexeme is a word that begins like a generated name. -/
def isGeneratedWord : Lexeme → Bool
  | .name n => beginsGenerated n
  | _ => false

/-- A text has closed strings, and of its words, names of properties among them, only some of the
given names begin like a generated one. -/
def SpellsOnly (text : List Char) (names : List String) : Prop :=
  ∃ ls, lexemes? text = some ls ∧ ∀ n, .name n ∈ ls → beginsGenerated n = true → n ∈ names

/-- Whether a text has closed strings, begins and ends with something else than a word, and has no
word in it that begins like a generated name. -/
def isFixedPart (text : List Char) : Bool :=
  text.head?.any (!isNamePart ·) && !text.getLast?.any isNamePart
    && (lexemes? text).any fun ls ↦ !ls.any isGeneratedWord

namespace SpellsOnly

variable {as bs fixed : List Char} {names : List String}

theorem append (has : SpellsOnly as names) (hbs : SpellsOnly bs names)
    (hstart : bs.head?.any isNamePart = false) : SpellsOnly (as ++ bs) names := by
  obtain ⟨ls, hls, hwords⟩ := has
  obtain ⟨us, hus, hwords'⟩ := hbs
  refine ⟨ls ++ us, lexemes?_append hls hus hstart, fun n hn ↦ ?_⟩
  exact (List.mem_append.mp hn).elim (hwords n) (hwords' n)

theorem append_of_end (has : SpellsOnly as names) (hbs : SpellsOnly bs names)
    (hend : as.getLast?.any isNamePart = false) : SpellsOnly (as ++ bs) names := by
  obtain ⟨ls, hls, hwords⟩ := has
  obtain ⟨us, hus, hwords'⟩ := hbs
  refine ⟨ls ++ us, lexemes?_append_of_end hls hus hend, fun n hn ↦ ?_⟩
  exact (List.mem_append.mp hn).elim (hwords n) (hwords' n)

theorem name {name : String} (hword : Literal.IsWord name.toList) (h : name ∈ names) :
    SpellsOnly name.toList names := by
  refine ⟨_, lexemes?_name hword, fun n hn _ ↦ ?_⟩
  rw [List.mem_singleton, Lexeme.name.injEq] at hn
  rwa [hn]

theorem stringLiteral (s : String) : SpellsOnly (Script.stringLiteral s).toList names :=
  ⟨_, lexemes?_stringLiteral s, fun n hn ↦ by simp at hn⟩

/-- A fixed text is read. -/
theorem of_check (h : (lexemes? as).any (fun ls ↦ !ls.any isGeneratedWord) = true) :
    SpellsOnly as names := by
  obtain ⟨ls, hls, hnone⟩ := (Option.any_eq_true ..).mp h
  rw [Bool.not_eq_true', List.any_eq_false] at hnone
  exact ⟨ls, hls, fun n hn hbegins ↦ absurd hbegins (hnone _ hn)⟩

/-- A fixed text between words. -/
theorem between (has : SpellsOnly as names) (hfixed : isFixedPart fixed = true)
    (hbs : SpellsOnly bs names) : SpellsOnly (as ++ (fixed ++ bs)) names := by
  simp only [isFixedPart, Bool.and_eq_true, Bool.not_eq_true'] at hfixed
  obtain ⟨⟨hstart, hend⟩, hwords⟩ := hfixed
  refine has.append ((of_check hwords).append_of_end hbs hend) ?_
  obtain ⟨c, hc, hpart⟩ := (Option.any_eq_true ..).mp hstart
  rw [List.head?_append, hc]
  simpa using hpart

theorem mentionsOnly {text : String} (h : SpellsOnly text.toList names) :
    MentionsOnly text names := by
  obtain ⟨ls, hls, hwords⟩ := h
  exact mentionsOnly_of_lexemes hls fun n hn ↦ hwords n (name_mem_of_mem_identifiersBehind hn)

end SpellsOnly

/-! ### Guarded imports -/

section Guarded

variable {names : List String} {kind : ScopedImport}
  {specifier localName exported fallback : String}

theorem spellsOnly_schemaDescription (resource : String) :
    SpellsOnly (ScopedImport.schemaDescription resource).toList names := by
  have hobject : SpellsOnly "objectApiName: ".toList names := .of_check (by decide)
  have hopen : SpellsOnly "\x7b ".toList names := .of_check (by decide)
  have hclose : SpellsOnly " \x7d".toList names := .of_check (by decide)
  have hfield : SpellsOnly ", fieldApiName: ".toList names := .of_check (by decide +kernel)
  unfold ScopedImport.schemaDescription
  dsimp only
  split
  · simp only [String.toList_append, List.append_assoc]
    exact hopen.append_of_end (hobject.append_of_end ((SpellsOnly.stringLiteral _).append hclose rfl)
      rfl) rfl
  · simp only [String.toList_append, List.append_assoc]
    exact hopen.append_of_end (hobject.append_of_end ((SpellsOnly.stringLiteral _).append
      (hfield.append_of_end ((SpellsOnly.stringLiteral _).append hclose rfl) rfl) rfl) rfl) rfl

theorem spellsOnly_fallback (kind : ScopedImport) (resource : String) :
    SpellsOnly (kind.fallback resource).toList names := by
  have hlater : SpellsOnly ScopedImport.laterNothing.toList names := .of_check (by decide +kernel)
  have hundefined : SpellsOnly "undefined".toList names := .of_check (by decide)
  have hdefaults : ∀ p ∈ ScopedImport.localeDefaults, (lexemes? p.2.toList).any
      (fun ls ↦ !ls.any isGeneratedWord) = true := by decide +kernel
  unfold ScopedImport.fallback
  split
  · exact .stringLiteral _
  · exact .stringLiteral _
  · exact .stringLiteral _
  · exact .stringLiteral _
  · exact spellsOnly_schemaDescription _
  · cases hlookup : ScopedImport.localeDefaults.lookup resource with
    | none => exact hundefined
    | some value =>
      obtain ⟨before, behind, heq, -⟩ := List.lookup_eq_some_iff.mp hlookup
      refine .of_check (hdefaults (resource, value) ?_)
      rw [heq]
      exact List.mem_append_right _ List.mem_cons_self
  · split
    · exact .stringLiteral _
    · split
      · exact .of_check (by decide)
      · exact hundefined
  · split
    · exact .stringLiteral _
    · exact hundefined
  · exact hlater
  · exact hlater
  · exact .of_check (by decide)
  · exact hundefined
  · exact hundefined
  · exact hundefined

theorem IsFallback.spellsOnly (h : IsFallback kind exported fallback) :
    SpellsOnly fallback.toList names ∧ SpellsOnly (propertyAccess exported).toList names := by
  have haccess : ∀ key ∈ ["default", "refreshApex", "getSObjectValue"],
      (lexemes? (propertyAccess key).toList).any (fun ls ↦ !ls.any isGeneratedWord) = true := by
    decide +kernel
  rcases h with ⟨rfl, resource, rfl⟩ | h
  · exact ⟨spellsOnly_fallback kind resource, .of_check (haccess _ (by simp))⟩
  · unfold ScopedImport.helperFallback? at h
    split_ifs at h with hrefresh hvalue
    · cases h
      rw [hrefresh]
      exact ⟨.of_check (by decide +kernel), .of_check (haccess _ (by simp))⟩
    · cases h
      rw [hvalue]
      exact ⟨.of_check (by decide), .of_check (haccess _ (by simp))⟩

/-- A variable gets a value in a line of its own. -/
theorem spellsOnly_assignment {value : String} (hword : Literal.IsWord localName.toList)
    (hname : localName ∈ names) (hvalue : SpellsOnly value.toList names) :
    SpellsOnly ("  " ++ localName ++ " = " ++ value ++ ";\n").toList names := by
  have hindent : SpellsOnly "  ".toList names := .of_check (by decide)
  have hend : SpellsOnly ";\n".toList names := .of_check (by decide)
  simp only [String.toList_append, List.append_assoc]
  exact hindent.append_of_end
    ((SpellsOnly.name hword hname).between (by decide) (hvalue.append hend rfl)) rfl

theorem spellsOnly_loaded (h : SpellsOnly (propertyAccess exported).toList names) :
    SpellsOnly (requireCall specifier ++ propertyAccess exported).toList names := by
  have hopen : SpellsOnly "require(".toList names := .of_check (by decide)
  have hclose : SpellsOnly ")".toList names := .of_check (by decide)
  simp only [requireCall, String.toList_append, List.append_assoc]
  exact hopen.append_of_end ((SpellsOnly.stringLiteral specifier).append
    (hclose.append_of_end h rfl) rfl) rfl

/-- A guarded import ends in a brace. -/
theorem exists_guardedVariable_eq (hword : Literal.IsWord localName.toList)
    (hname : localName ∈ names) (h : IsFallback kind exported fallback) :
    ∃ front, (ScopedImport.guardedVariable localName specifier exported fallback).toList
      = front ++ "\x7d\n".toList ∧ SpellsOnly front names := by
  obtain ⟨hfallback, haccess⟩ : SpellsOnly fallback.toList names ∧
      SpellsOnly (propertyAccess exported).toList names := h.spellsOnly
  have hlet : SpellsOnly "let ".toList names := .of_check (by decide)
  have hend : SpellsOnly ";\n".toList names := .of_check (by decide)
  have htry : SpellsOnly "try \x7b\n".toList names := .of_check (by decide)
  have hcatch : SpellsOnly "\x7d catch (e) \x7b\n".toList names := .of_check (by decide)
  have hloaded : SpellsOnly (requireCall specifier ++ propertyAccess exported).toList names :=
    spellsOnly_loaded haccess
  have hassigned := spellsOnly_assignment hword hname hloaded
  have hfailed := spellsOnly_assignment hword hname hfallback
  refine ⟨("let " ++ localName ++ ";\n").toList ++ ("try \x7b\n".toList
    ++ (("  " ++ localName ++ " = " ++ (requireCall specifier ++ propertyAccess exported)
        ++ ";\n").toList
      ++ ("\x7d catch (e) \x7b\n".toList
        ++ ("  " ++ localName ++ " = " ++ fallback ++ ";\n").toList))), ?_, ?_⟩
  · rw [guardedVariable_eq]
    simp only [String.toList_append, List.append_assoc]
  · have hdeclared : SpellsOnly ("let " ++ localName ++ ";\n").toList names := by
      simp only [String.toList_append, List.append_assoc]
      exact hlet.append_of_end ((SpellsOnly.name hword hname).append hend rfl) rfl
    have hlast : ∀ line : String, (line ++ ";\n").toList.getLast?.any isNamePart = false := by
      intro line
      rw [String.toList_append, List.getLast?_append]
      rfl
    exact hdeclared.append_of_end (htry.append_of_end (hassigned.append_of_end
      (hcatch.append_of_end hfailed rfl) (hlast _)) rfl) (hlast _)

/-- The words of guarded imports, and what they end in. -/
theorem exists_lexemes_guarded {bs : List RuntimeImport} {text : String}
    (hbs : ∀ b ∈ bs, Literal.IsWord b.localName.toList)
    (h : kind.statements specifier bs = .ok text) :
    ∃ ls, lexemes? text.toList = some ls ∧ ls.getLast? ≠ some (.mark ';') ∧
      ∀ n, .name n ∈ ls → beginsGenerated n = true → n ∈ bs.map RuntimeImport.localName := by
  obtain ⟨texts, rfl, hstatements⟩ := exists_scopedStatements h
  have hall : ∀ t ∈ texts, ∃ front, t.toList = front ++ "\x7d\n".toList ∧
      SpellsOnly front (bs.map RuntimeImport.localName) := by
    intro t ht
    obtain ⟨b, hb, hstatement⟩ := exists_of_mem_forall₂ hstatements ht
    obtain ⟨exported, fallback, rfl, hfallback⟩ := exists_guardedVariable hstatement
    exact exists_guardedVariable_eq (hbs b hb) (List.mem_map_of_mem hb) hfallback
  have hbrace : lexemes? "\x7d\n".toList = some [.mark '}'] := by decide
  rw [String.toList_join]
  clear hstatements h
  induction texts with
  | nil => exact ⟨[], rfl, nofun, nofun⟩
  | cons t ts ih =>
    obtain ⟨⟨front, hfront, ls, hls, hwords⟩, hts⟩ := List.forall_mem_cons.mp hall
    obtain ⟨us, hus, hlast, hwords'⟩ := ih hts
    refine ⟨ls ++ ([.mark '}'] ++ us), ?_, ?_, fun n hn ↦ ?_⟩
    · rw [List.flatMap_cons, hfront, List.append_assoc]
      exact lexemes?_append hls (lexemes?_append_of_end hbrace hus rfl) rfl
    · intro hend
      rw [List.getLast?_append, List.getLast?_append] at hend
      cases hus' : us.getLast? with
      | none => rw [hus'] at hend; cases hend
      | some l =>
        rw [hus'] at hend hlast
        exact hlast hend
    · simp only [List.mem_append, List.mem_singleton, reduceCtorEq, false_or] at hn
      exact hn.elim (hwords n) (hwords' n)

end Guarded

/-! ## Declarations -/

/-- The words that declare the name behind them. -/
def declaringWords : List String := ["function", "const", "let", "var"]

/-- The names that stand behind words that declare them. -/
def declaredBehind : List Lexeme → List String
  | .name word :: .name n :: rest =>
    (if word ∈ declaringWords then [n] else []) ++ declaredBehind (.name n :: rest)
  | _ :: rest => declaredBehind rest
  | [] => []

/-- The names that a text declares: the constants of a statement that loads a module, or functions
and variables. -/
def declaredIn (text : String) : List String :=
  match readStatement? text.toList with
  | some reading => reading.declared.map Prod.fst
  | none => ((lexemes? text.toList).map declaredBehind).getD []

section Declared

variable {text name : String} {ls : List Lexeme}

theorem name_mem_of_mem_declaredBehind (h : name ∈ declaredBehind ls) : .name name ∈ ls := by
  fun_induction declaredBehind ls with
  | case1 word n rest ih =>
    rcases List.mem_append.mp h with h | h
    · split at h
      · rw [List.mem_singleton.mp h]
        exact List.mem_cons_of_mem _ List.mem_cons_self
      · cases h
    · exact List.mem_cons_of_mem _ (ih h)
  | case2 l rest _ ih => exact List.mem_cons_of_mem _ (ih h)
  | case3 => cases h

/-- A text that does not end in a semicolon is no statement that loads a module. -/
theorem declaredIn_eq (h : lexemes? text.toList = some ls)
    (hlast : ls.getLast? ≠ some (.mark ';')) : declaredIn text = declaredBehind ls := by
  have hnone : readStatement? text.toList = none := by
    rw [readStatement?, h, Option.bind_some, if_neg hlast]
  rw [declaredIn, hnone, h]
  rfl

end Declared

theorem ImportStatement.declaredIn_text {s : ImportStatement}
    (hwords : ∀ name ∈ s.names, Literal.IsWord name.toList) (hguarded : s.isGuarded = false)
    (hlocals : ∀ helper specifier n bs, s = .reference helper specifier n bs →
      ∀ b ∈ bs, b.localName ≠ n) : declaredIn s.text = s.constants.map Prod.fst := by
  rw [declaredIn, readStatement?_text hwords hguarded hlocals]

/-! ### Helpers -/

/-- Whether a text behind the name of a function goes on with brackets and ends in a brace, and
neither mentions nor declares anything that begins like a generated name. -/
def endsDefinition (text : List Char) : Bool :=
  !text.head?.any isNamePart && (lexemes? text).any fun ls ↦
    ls.head? == some (.mark '(') && ls.getLast? == some (.mark '}')
      && !(identifiers ls).any beginsGenerated && !(declaredBehind ls).any beginsGenerated

/-- A text defines a function and has no other generated name in it. -/
structure Defines (text name : String) : Prop where
  mentions : MentionsOnly text [name]
  begins : ∃ rest, identifiersOf text = "function" :: name :: rest
  declared : ∃ rest, declaredIn text = name :: rest ∧ ∀ n ∈ rest, beginsGenerated n = false

theorem defines_of_endsDefinition {text name : String} {ends : List Char}
    (hword : Literal.IsWord name.toList)
    (htext : text.toList = "function ".toList ++ (name.toList ++ ends))
    (h : endsDefinition ends = true) : Defines text name := by
  have hfunction : lexemes? "function ".toList = some [.name "function"] := by decide
  rw [endsDefinition, Bool.and_eq_true, Bool.not_eq_true', Option.any_eq_true] at h
  obtain ⟨hstart, ls, hls, hends⟩ := h
  simp only [Bool.and_eq_true, beq_iff_eq, Bool.not_eq_true'] at hends
  obtain ⟨⟨⟨hhead, hlast⟩, hplain⟩, hdeclared⟩ := hends
  obtain ⟨tail, rfl⟩ := List.head?_eq_some_iff.mp hhead
  have hwhole : lexemes? text.toList
      = some (.name "function" :: .name name :: .mark '(' :: tail) := by
    rw [htext]
    exact lexemes?_append_of_end hfunction (lexemes?_name_append hword hls hstart) rfl
  have hidentifiers : identifiers (.name "function" :: .name name :: .mark '(' :: tail)
      = "function" :: name :: identifiers (.mark '(' :: tail) := rfl
  have hlast' : (.name "function" :: .name name :: .mark '(' :: tail).getLast?
      ≠ some (Lexeme.mark ';') := by
    rw [List.getLast?_cons_cons, List.getLast?_cons_cons, hlast]
    decide
  refine ⟨mentionsOnly_of_lexemes hwhole fun n hn hbegins ↦ ?_,
    ⟨_, (identifiersOf_eq hwhole).trans hidentifiers⟩, declaredBehind (.mark '(' :: tail), ?_,
    fun n hn ↦ ?_⟩
  · rw [hidentifiers, List.mem_cons, List.mem_cons] at hn
    rcases hn with rfl | rfl | hn
    · exact absurd hbegins (by decide)
    · exact List.mem_singleton_self _
    · exact absurd hbegins (List.any_eq_false.mp hplain n hn)
  · rw [declaredIn_eq hwhole hlast']
    rfl
  · exact Bool.eq_false_iff.mpr (List.any_eq_false.mp hdeclared n hn)

theorem defines_defaultHelperText {name : String} (hword : Literal.IsWord name.toList) :
    Defines (defaultHelperText name) name := by
  apply defines_of_endsDefinition hword
  · unfold defaultHelperText
    simp only [String.toList_append, List.append_assoc]
    rfl
  · decide +kernel

theorem defines_wholeHelperText {name : String} (hword : Literal.IsWord name.toList) :
    Defines (wholeHelperText name) name := by
  apply defines_of_endsDefinition hword
  · unfold wholeHelperText
    simp only [String.toList_append, List.append_assoc]
    rfl
  · decide +kernel

/-! ## Statements for exports -/

section Exports

variable {s : ExportStatement}

theorem mentionsOnly_value {exported target : String} (h : Literal.IsWord target.toList) :
    MentionsOnly (ExportStatement.value exported target).text [target] := by
  have hexports : lexemes? "exports".toList = some [.name "exports"] := by decide
  have hequals : lexemes? " = ".toList = some [.mark '='] := by decide
  have hend : lexemes? ";\n".toList = some [.mark ';'] := by decide
  have hvalue := lexemes?_append_of_end hequals (lexemes?_name_append h hend rfl) rfl
  have hwhole := lexemes?_append
    (lexemes?_append hexports (lexemes?_propertyAccess exported) (head?_propertyAccess exported))
    hvalue rfl
  have htext : (ExportStatement.value exported target).text.toList
      = "exports".toList ++ (propertyAccess exported).toList
        ++ (" = ".toList ++ (target.toList ++ ";\n".toList)) := by
    unfold ExportStatement.text
    simp only [String.toList_append, List.append_assoc]
  have hidentifiers : identifiers ([.name "exports"] ++ accessLexemes exported
      ++ ([.mark '='] ++ .name target :: [.mark ';'])) = ["exports", target] := by
    unfold accessLexemes
    split_ifs <;> rfl
  rw [← htext] at hwhole
  refine mentionsOnly_of_lexemes hwhole fun n hn hbegins ↦ ?_
  rw [hidentifiers, List.mem_cons] at hn
  rcases hn with rfl | hn
  · exact absurd hbegins (by decide)
  · exact hn

theorem mentionsOnly_getter {exported r imported : String} (h : Literal.IsWord r.toList) :
    MentionsOnly (ExportStatement.getter exported r imported).text [r] := by
  have hdefine : lexemes? "Object.defineProperty(exports, ".toList = some [.name "Object", .mark '.',
      .name "defineProperty", .mark '(', .name "exports", .mark ','] := by decide +kernel
  have hreturn : lexemes? ", \x7b enumerable: true, get: function () \x7b return ".toList
      = some [.mark ',', .mark '{', .name "enumerable", .mark ':', .name "true", .mark ',',
        .name "get", .mark ':', .name "function", .mark '(', .mark ')', .mark '{',
        .name "return"] := by decide +kernel
  have hend : lexemes? "; \x7d \x7d);\n".toList
      = some [.mark ';', .mark '}', .mark '}', .mark ')', .mark ';'] := by decide +kernel
  have hvalue := lexemes?_append
    (lexemes?_append (lexemes?_name h) (lexemes?_propertyAccess imported)
      (head?_propertyAccess imported)) hend rfl
  have hwhole := lexemes?_append_of_end hdefine (lexemes?_append (lexemes?_stringLiteral exported)
    (lexemes?_append_of_end hreturn hvalue rfl) rfl) rfl
  have htext : (ExportStatement.getter exported r imported).text.toList
      = "Object.defineProperty(exports, ".toList ++ ((stringLiteral exported).toList
        ++ (", \x7b enumerable: true, get: function () \x7b return ".toList
          ++ (r.toList ++ (propertyAccess imported).toList ++ "; \x7d \x7d);\n".toList))) := by
    unfold ExportStatement.text
    simp only [String.toList_append, List.append_assoc]
  have hidentifiers : identifiers (.name "Object" :: .mark '.' :: .name "defineProperty" ::
      .mark '(' :: .name "exports" :: .mark ',' :: .string exported :: .mark ',' :: .mark '{' ::
      .name "enumerable" :: .mark ':' :: .name "true" :: .mark ',' :: .name "get" :: .mark ':' ::
      .name "function" :: .mark '(' :: .mark ')' :: .mark '{' :: .name "return" :: .name r ::
      (accessLexemes imported ++ [.mark ';', .mark '}', .mark '}', .mark ')', .mark ';']))
        = ["Object", "exports", "true", "function", "return"] ++ [r] := by
    unfold accessLexemes
    split_ifs <;> rfl
  have hplain : ∀ n ∈ ["Object", "exports", "true", "function", "return"],
      beginsGenerated n = false := by decide
  rw [← htext] at hwhole
  refine mentionsOnly_of_lexemes hwhole fun n hn hbegins ↦ ?_
  have hmem := List.mem_append.mp (hidentifiers ▸ hn)
  refine hmem.resolve_left fun hn ↦ ?_
  rw [hplain n hn] at hbegins
  cases hbegins

theorem spellsOnly_all {r : String} (h : Literal.IsWord r.toList) :
    SpellsOnly (ExportStatement.all r).text.toList [r] := by
  have hr : SpellsOnly r.toList [r] := .name h (List.mem_singleton_self r)
  unfold ExportStatement.text
  simp only [String.toList_append, List.append_assoc]
  refine .append_of_end (.of_check ?_) (hr.between ?_ (.append_of_end (.of_check ?_)
    (hr.between ?_ (.append_of_end (.of_check ?_) (hr.append (.of_check ?_) rfl) ?_)) ?_)) ?_
  all_goals decide +kernel

/-- A statement for an export mentions no other generated name than the one it is written with. -/
theorem ExportStatement.mentionsOnly_text (h : ∀ name ∈ s.names, Literal.IsWord name.toList) :
    MentionsOnly s.text s.names := by
  cases s with
  | value exported target => exact mentionsOnly_value (h target List.mem_cons_self)
  | getter exported r imported => exact mentionsOnly_getter (h r List.mem_cons_self)
  | all r => exact (spellsOnly_all (h r List.mem_cons_self)).mentionsOnly

end Exports

/-! ## Edits -/

section Edits

variable {features : Features} {source : List Char} {n : Node} {e : Edit}

/-- What a converted dynamic import has in front of its argument. -/
def promiseFront (helper : String) : String :=
  "Promise.resolve().then(() => " ++ helper ++ "(require("

theorem lexemes?_promiseFront {helper : String} (h : Literal.IsWord helper.toList) :
    lexemes? (promiseFront helper).toList = some [.name "Promise", .mark '.', .name "resolve",
      .mark '(', .mark ')', .mark '.', .name "then", .mark '(', .mark '(', .mark ')', .mark '=',
      .mark '>', .name helper, .mark '(', .name "require", .mark '('] := by
  have hresolve : lexemes? "Promise.resolve().then(() => ".toList = some [.name "Promise", .mark '.',
      .name "resolve", .mark '(', .mark ')', .mark '.', .name "then", .mark '(', .mark '(', .mark ')',
      .mark '=', .mark '>'] := by decide +kernel
  have hrequire : lexemes? "(require(".toList = some [.mark '(', .name "require", .mark '('] := by
    decide
  unfold promiseFront
  simp only [String.toList_append, List.append_assoc]
  exact lexemes?_append_of_end hresolve (lexemes?_name_append h hrequire rfl) (by decide)

theorem identifiersOf_promiseFront {helper : String} (h : Literal.IsWord helper.toList) :
    identifiersOf (promiseFront helper) = ["Promise", helper, "require"] :=
  identifiersOf_eq (lexemes?_promiseFront h)

theorem declaredIn_promiseFront {helper : String} (h : Literal.IsWord helper.toList) :
    declaredIn (promiseFront helper) = [] := by
  rw [declaredIn_eq (lexemes?_promiseFront h) (by simp)]
  rfl

theorem lexemes?_newlines (k : Nat) : lexemes? (List.replicate k '\n') = some [] := by
  have hrun : ∀ k, run .between (List.replicate k '\n') = ([], .between) := by
    intro k
    induction k with
    | zero => rfl
    | succ k ih => exact ih
  rw [lexemes?, hrun]
  rfl

/-- An edit of a statement cuts it out, or writes nothing that depends on the script. -/
theorem text_of_mem_editsOf (he : e ∈ editsOf features source n) :
    e = cutEdit source (itemSpan n) ∨ e.text ∈ ["", defaultAssignment, ";"] := by
  rcases mem_editsOf he with ⟨-, hcut⟩ | ⟨inner, -, ⟨-, htext⟩ | rfl⟩
  · exact .inl hcut
  · exact .inr (List.mem_append_left [";"] htext)
  · exact .inr (List.mem_append_right ["", defaultAssignment] (List.mem_singleton_self ";"))

/-- An edit of a statement mentions no generated name. -/
theorem mentionsOnly_of_mem_editsOf (he : e ∈ editsOf features source n) :
    MentionsOnly e.text [] := by
  rcases text_of_mem_editsOf he with rfl | htext
  · have hlexemes : lexemes? (cutEdit source (itemSpan n)).text.toList = some [] := by
      rw [cutEdit, String.toList_ofList, lexemes?_newlines]
    exact mentionsOnly_of_lexemes hlexemes fun _ hn ↦ absurd hn List.not_mem_nil
  · have hfixed : ∀ text ∈ ["", defaultAssignment, ";"], (lexemes? text.toList).any
        (fun ls ↦ !ls.any isGeneratedWord) = true := by decide
    exact (SpellsOnly.of_check (hfixed _ htext)).mentionsOnly

end Edits

end Downlevel.CommonJs
