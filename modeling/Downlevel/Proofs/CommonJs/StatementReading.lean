import Downlevel.Proofs.CommonJs.MapLines
import Downlevel.Proofs.Script.Lexeme

/-!
# Reading the statements of a header

What a statement that loads a module does, read off its text alone. The lexemes of the text are a
list of constants, a pattern that takes properties out of a module, or a mere call of `require`.
Reading tells which modules are loaded and which names are declared, each with the value it gets:
a module as it is, what a helper makes of it, or a property of one of them. A constant that is
declared as a property of another one of the same statement is traced back to the module.

The text of each kind of statement is read back here, whatever names and properties are in it.
-/

namespace Downlevel.CommonJs

open Script Text

/-! ## Values -/

/-- What an expression of a header stands for. -/
inductive Value where
  /-- The value of a name. -/
  | name (name : String)
  /-- What `require` gives for a module. -/
  | loaded (specifier : String)
  /-- What a helper makes of a value. -/
  | wrapped (helper : String) (value : Value)
  | property (object : Value) (key : String)
  deriving DecidableEq, Inhabited, Repr

/-- A value with the names of a scope replaced by what they stand for. -/
def Value.resolve (scope : List (String × Value)) : Value → Value
  | .name n => (scope.lookup n).getD (.name n)
  | .loaded specifier => .loaded specifier
  | .wrapped helper value => .wrapped helper (value.resolve scope)
  | .property object key => .property (object.resolve scope) key

/-- Constants in a row, with the names in their values replaced: each can refer to those before
it. -/
def resolveAll : List (String × Value) → List (String × Value) → List (String × Value)
  | _, [] => []
  | scope, (n, v) :: rest =>
    (n, v.resolve scope) :: resolveAll ((n, v.resolve scope) :: scope) rest

/-- What an import binds, given the value of its module. -/
def Value.bound (whole : Value) : RuntimeImport → Value
  | .default _ => .property whole "default"
  | .wholeModule _ => whole
  | .named imported _ => .property whole imported

/-! ## Readers -/

/-- The value of a property access, or of several in a row. -/
def accesses? : Value → List Lexeme → Option Value
  | v, [] => some v
  | v, .mark '.' :: .name key :: rest => accesses? (.property v key) rest
  | v, .mark '[' :: .string key :: .mark ']' :: rest => accesses? (.property v key) rest
  | _, _ => none

/-- What an expression stands for: a loaded module, perhaps with a helper around it, or a name, and
properties of these. -/
def value? : List Lexeme → Option Value
  | .name f :: .mark '(' :: .string s :: .mark ')' :: rest =>
    if f = "require" then accesses? (.loaded s) rest else none
  | .name helper :: .mark '(' :: .name f :: .mark '(' :: .string s :: .mark ')' :: .mark ')'
      :: rest =>
    if f = "require" then accesses? (.wrapped helper (.loaded s)) rest else none
  | .name n :: rest => accesses? (.name n) rest
  | _ => none

/-- An entry of a pattern: the property that is taken, and the name that gets it. -/
def entry? : List Lexeme → Option (String × String)
  | [.name n] => some (n, n)
  | [.name key, .mark ':', .name n] => some (key, n)
  | [.string key, .mark ':', .name n] => some (key, n)
  | _ => none

/-- The entries of a pattern, from what stands between its braces. -/
def entries? (ls : List Lexeme) : Option (List (String × String)) :=
  if ls = [] then some [] else (ls.splitOn (.mark ',')).mapM entry?

/-- A constant and its value. -/
def constant? : List Lexeme → Option (String × Value)
  | .name n :: .mark '=' :: value => (value? value).map fun v ↦ (n, v)
  | _ => none

/-- The value behind the end of a pattern. -/
def patternValue? : List Lexeme → Option Value
  | .mark '}' :: .mark '=' :: value => value? value
  | _ => none

/-- What a declaration declares, from what stands in it behind `const`. -/
def constants? : List Lexeme → Option (List (String × Value))
  | .mark '{' :: rest =>
    (entries? (rest.takeWhile (· != .mark '}'))).bind fun entries ↦
      (patternValue? (rest.dropWhile (· != .mark '}'))).map fun v ↦
        entries.map fun entry ↦ (entry.2, .property v entry.1)
  | ls => ((ls.splitOn (.mark ',')).mapM constant?).map (resolveAll [])

/-- What a statement declares, from what stands in front of its semicolon. -/
def sentence? : List Lexeme → Option (List (String × Value))
  | .name word :: rest =>
    if word = "const" then constants? rest else (value? (.name word :: rest)).map fun _ ↦ []
  | _ => none

/-- The modules that are loaded by calls of `require` with a string, in their order. -/
def loadedIn : List Lexeme → List String
  | .name f :: .mark '(' :: .string s :: rest =>
    (if f = "require" then [s] else []) ++ loadedIn rest
  | _ :: rest => loadedIn rest
  | [] => []

/-- What a statement does: the modules that it loads, and the names that it declares with the values
they get. -/
structure StatementReading where
  loaded : List String
  declared : List (String × Value)
  deriving DecidableEq, Inhabited, Repr

/-- Reads a statement of a header from its text. -/
def readStatement? (text : List Char) : Option StatementReading :=
  (Lexeme.lexemes? text).bind fun ls ↦
    if ls.getLast? = some (.mark ';') then
      (sentence? ls.dropLast).map fun declared ↦ ⟨loadedIn ls, declared⟩
    else none

/-! ## Lexemes of statements -/

section Lexemes

open Lexeme

/-- The lexemes of a call that loads a module. -/
def callLexemes (specifier : String) : List Lexeme :=
  [.name "require", .mark '(', .string specifier, .mark ')']

/-- The lexemes of a property access. -/
def accessLexemes (key : String) : List Lexeme :=
  if isAsciiName key then [.mark '.', .name key] else [.mark '[', .string key, .mark ']']

/-- The lexemes of an entry of a pattern. -/
def fieldLexemes (field : String × String) : List Lexeme :=
  if field.1 = field.2 && isAsciiName field.1 then [.name field.2]
  else [if isAsciiName field.1 then .name field.1 else .string field.1, .mark ':', .name field.2]

/-- The lexemes of a constant that holds what an import binds. -/
def bindingLexemes (reference : String) : RuntimeImport → List Lexeme
  | .default n => [.name n, .mark '=', .name reference, .mark '.', .name "default"]
  | .wholeModule n => [.name n, .mark '=', .name reference]
  | .named imported n => [.name n, .mark '=', .name reference] ++ accessLexemes imported

variable {specifier helper reference key : String} {bs : List Char} {ls : List Lexeme}

theorem isWord_of_isAsciiName (h : isAsciiName key = true) : Literal.IsWord key.toList := by
  refine ⟨?_, isNamePart_of_isAsciiName h⟩
  intro hnil
  rw [isAsciiName, hnil] at h
  cases h

theorem lexemes?_name (h : Literal.IsWord key.toList) : lexemes? key.toList = some [.name key] := by
  rw [lexemes?_word h, String.ofList_toList]

/-- A name in front of something that does not go on with it. -/
theorem lexemes?_name_append (h : Literal.IsWord key.toList) (hbs : lexemes? bs = some ls)
    (hstart : bs.head?.any isNamePart = false) :
    lexemes? (key.toList ++ bs) = some (.name key :: ls) :=
  lexemes?_append (lexemes?_name h) hbs hstart

theorem lexemes?_requireCall_append (specifier : String) (hbs : lexemes? bs = some ls) :
    lexemes? ((requireCall specifier).toList ++ bs) = some (callLexemes specifier ++ ls) := by
  have hopen : lexemes? "require(".toList = some [.name "require", .mark '('] := by decide
  have hclose : lexemes? ")".toList = some [.mark ')'] := by decide
  have hrest := lexemes?_append (lexemes?_stringLiteral specifier)
    (lexemes?_append_of_end hclose hbs rfl) rfl
  have hcall := lexemes?_append_of_end hopen hrest rfl
  rw [requireCall, String.toList_append, String.toList_append, List.append_assoc, List.append_assoc]
  exact hcall

theorem lexemes?_propertyAccess (key : String) :
    lexemes? (propertyAccess key).toList = some (accessLexemes key) := by
  unfold propertyAccess accessLexemes
  have hdot : lexemes? ".".toList = some [.mark '.'] := by decide
  have hopen : lexemes? "[".toList = some [.mark '['] := by decide
  have hclose : lexemes? "]".toList = some [.mark ']'] := by decide
  split
  · next h =>
    rw [String.toList_append]
    exact lexemes?_append_of_end hdot (lexemes?_name (isWord_of_isAsciiName h)) rfl
  · rw [String.toList_append, String.toList_append, List.append_assoc]
    exact lexemes?_append_of_end hopen
      (lexemes?_append (lexemes?_stringLiteral key) hclose rfl) rfl

theorem head?_propertyAccess (key : String) :
    (propertyAccess key).toList.head?.any isNamePart = false := by
  unfold propertyAccess
  split <;> simp only [String.toList_append, List.append_assoc] <;> rfl

theorem lexemes?_fieldText {field : String × String} (h : Literal.IsWord field.2.toList) :
    lexemes? (fieldText field).toList = some (fieldLexemes field) := by
  obtain ⟨imported, n⟩ := field
  have hcolon : lexemes? ": ".toList = some [.mark ':'] := by decide
  have hlocal : lexemes? (": ".toList ++ n.toList) = some [.mark ':', .name n] :=
    lexemes?_append_of_end hcolon (lexemes?_name h) rfl
  unfold fieldText fieldLexemes
  dsimp only
  split_ifs with hshort hascii
  · exact lexemes?_name h
  · rw [writtenKey, if_pos hascii, String.toList_append, String.toList_append, List.append_assoc]
    exact lexemes?_name_append (isWord_of_isAsciiName hascii) hlocal rfl
  · rw [writtenKey, if_neg hascii, String.toList_append, String.toList_append, List.append_assoc]
    exact lexemes?_append (lexemes?_stringLiteral imported) hlocal rfl

theorem lexemes?_bindingText {b : RuntimeImport} (hreference : Literal.IsWord reference.toList)
    (h : Literal.IsWord b.localName.toList) :
    lexemes? (bindingText reference b).toList = some (bindingLexemes reference b) := by
  have hequals : lexemes? " = ".toList = some [.mark '='] := by decide
  have hdefault : lexemes? ".default".toList = some [.mark '.', .name "default"] := by decide
  cases b with
  | default n =>
    simp only [bindingText, String.toList_append, List.append_assoc]
    exact lexemes?_name_append h (lexemes?_append_of_end hequals
      (lexemes?_name_append hreference hdefault rfl) rfl) rfl
  | wholeModule n =>
    have hvalue := lexemes?_append_of_end hequals (lexemes?_name hreference) rfl
    simp only [bindingText, String.toList_append, List.append_assoc]
    exact lexemes?_name_append h hvalue rfl
  | named imported n =>
    have hvalue := lexemes?_append_of_end hequals (lexemes?_name_append hreference
      (lexemes?_propertyAccess imported) (head?_propertyAccess imported)) rfl
    simp only [bindingText, String.toList_append, List.append_assoc]
    exact lexemes?_name_append h hvalue rfl

/-- Texts with commas between them have the lexemes of the texts, with commas between them. -/
theorem lexemes?_intercalate {α : Type} {f : α → String} {g : α → List Lexeme} {as : List α}
    (h : ∀ a ∈ as, lexemes? (f a).toList = some (g a)) :
    lexemes? (", ".intercalate (as.map f)).toList
      = some ([.mark ','].intercalate (as.map g)) := by
  have hcomma : lexemes? ", ".toList = some [.mark ','] := by decide
  rw [String.toList_intercalate]
  induction as with
  | nil => rfl
  | cons a as ih =>
    obtain ⟨ha, has⟩ := List.forall_mem_cons.mp h
    have hrest := ih has
    cases as with
    | nil =>
      simp only [List.map_cons, List.map_nil, List.intercalate_singleton]
      exact ha
    | cons b bs =>
      simp only [List.map_cons, List.intercalate_cons_cons, List.append_assoc] at hrest ⊢
      exact lexemes?_append ha (lexemes?_append_of_end hcomma hrest rfl) rfl

end Lexemes

namespace ImportStatement

open Lexeme

/-- The lexemes of a statement in front of its semicolon. -/
def lexemes : ImportStatement → List Lexeme
  | effect s => callLexemes s
  | fields s fs =>
    .name "const" :: .mark '{' :: ([.mark ','].intercalate (fs.map fieldLexemes)
      ++ .mark '}' :: .mark '=' :: callLexemes s)
  | defaultOnly helper s n =>
    .name "const" :: .name n :: .mark '=' :: .name helper :: .mark '('
      :: (callLexemes s ++ [.mark ')', .mark '.', .name "default"])
  | reference helper s n bs =>
    .name "const" :: [.mark ','].intercalate
      ((.name n :: .mark '=' :: .name helper :: .mark '(' :: (callLexemes s ++ [.mark ')']))
        :: bs.map (bindingLexemes n))
  | guarded _ => []

/-- The module that a statement loads. -/
def specifier : ImportStatement → String
  | effect s | fields s _ | defaultOnly _ s _ | reference _ s _ _ => s
  | guarded _ => ""

/-- The constants that a statement declares, with their values. -/
def constants : ImportStatement → List (String × Value)
  | effect _ | guarded _ => []
  | fields s fs => fs.map fun field ↦ (field.2, .property (.loaded s) field.1)
  | defaultOnly helper s n => [(n, .property (.wrapped helper (.loaded s)) "default")]
  | reference helper s n bs =>
    (n, .wrapped helper (.loaded s)) :: bs.map fun b ↦
      (b.localName, Value.bound (.wrapped helper (.loaded s)) b)

/-- Whether a statement is the text of guarded imports. -/
def isGuarded : ImportStatement → Bool
  | guarded _ => true
  | _ => false

variable {s : ImportStatement}

theorem lexemes?_text (hwords : ∀ name ∈ s.names, Literal.IsWord name.toList)
    (hguarded : s.isGuarded = false) :
    lexemes? s.text.toList = some (s.lexemes ++ [.mark ';']) := by
  -- The pieces are put together from the end, as a name needs to know what follows it.
  have hconst : lexemes? "const ".toList = some [.name "const"] := by decide
  have hend : lexemes? ";\n".toList = some [.mark ';'] := by decide
  have hequals : lexemes? " = ".toList = some [.mark '='] := by decide
  have hopen : lexemes? "(".toList = some [.mark '('] := by decide
  cases s with
  | effect s =>
    rw [text, String.toList_append]
    exact lexemes?_requireCall_append s hend
  | fields s fs =>
    have hbrace : lexemes? "const \x7b ".toList = some [.name "const", .mark '{'] := by decide
    have hbrace' : lexemes? " \x7d = ".toList = some [.mark '}', .mark '='] := by decide
    have hfields : ∀ field ∈ fs, lexemes? (fieldText field).toList = some (fieldLexemes field) :=
      fun field hfield ↦ lexemes?_fieldText (hwords field.2 (List.mem_map_of_mem hfield))
    have hcall := lexemes?_append_of_end hbrace'
      (lexemes?_requireCall_append s hend) rfl
    have hinner := lexemes?_append (lexemes?_intercalate hfields) hcall rfl
    have hwhole := lexemes?_append_of_end hbrace hinner rfl
    simp only [text, lexemes, String.toList_append, List.append_assoc, List.cons_append]
    exact hwhole
  | defaultOnly helper s n =>
    simp only [names, List.forall_mem_cons] at hwords
    have hdefault : lexemes? ").default;\n".toList
        = some [.mark ')', .mark '.', .name "default", .mark ';'] := by decide
    have hvalue := lexemes?_append_of_end hopen
      (lexemes?_requireCall_append s hdefault) rfl
    have hconstant := lexemes?_append_of_end hequals
      (lexemes?_name_append hwords.1 hvalue rfl) rfl
    have hwhole := lexemes?_append_of_end hconst
      (lexemes?_name_append hwords.2.1 hconstant rfl) rfl
    simp only [text, lexemes, String.toList_append, List.append_assoc, List.cons_append]
    exact hwhole
  | reference helper s n bs =>
    simp only [names, List.forall_mem_cons, List.forall_mem_map] at hwords
    obtain ⟨hhelper, hname, hlocals⟩ := hwords
    have hclose : lexemes? ")".toList = some [.mark ')'] := by decide
    have hvalue := lexemes?_append_of_end hopen
      (lexemes?_requireCall_append s hclose) rfl
    have hconstant := lexemes?_append_of_end hequals (lexemes?_name_append hhelper hvalue rfl) rfl
    have hfirst := lexemes?_name_append hname hconstant rfl
    -- The first constant is listed with the others, each text next to its lexemes.
    let first : String × List Lexeme := (n ++ " = " ++ helper ++ "(" ++ requireCall s ++ ")",
      .name n :: .mark '=' :: .name helper :: .mark '(' :: (callLexemes s ++ [.mark ')']))
    let constants := first :: bs.map fun b ↦ (bindingText n b, bindingLexemes n b)
    have hall : ∀ c ∈ constants, lexemes? c.1.toList = some c.2 := by
      refine List.forall_mem_cons.mpr ⟨?_, List.forall_mem_map.mpr fun b hb ↦
        lexemes?_bindingText hname (hlocals b hb)⟩
      simp only [first, String.toList_append, List.append_assoc]
      exact hfirst
    have hwhole := lexemes?_append_of_end hconst
      (lexemes?_append (lexemes?_intercalate hall) hend rfl) rfl
    simp only [constants, first, List.map_cons, List.map_map] at hwhole
    simp only [text, lexemes, String.toList_append, List.append_assoc]
    exact hwhole
  | guarded text => cases hguarded

end ImportStatement

/-! ## What statements do -/

section Reading

variable {specifier helper reference : String}

/-- Lists with a separator between them begin with the first of them. -/
theorem exists_intercalate_eq {α : Type} (x : α) (g : List α) (gs : List (List α)) :
    ∃ tail, [x].intercalate (g :: gs) = g ++ tail ∧ ∀ a ∈ tail, a = x ∨ ∃ g' ∈ gs, a ∈ g' := by
  induction gs generalizing g with
  | nil => exact ⟨[], by simp, fun _ h ↦ nomatch h⟩
  | cons g' gs ih =>
    obtain ⟨tail, htail, hmem⟩ := ih g'
    refine ⟨x :: (g' ++ tail), ?_, fun a ha ↦ ?_⟩
    · rw [List.intercalate_cons_cons, htail, List.append_assoc, List.singleton_append]
    · rcases List.mem_cons.mp ha with rfl | ha
      · exact .inl rfl
      · rcases List.mem_append.mp ha with ha | ha
        · exact .inr ⟨g', List.mem_cons_self, ha⟩
        · exact (hmem a ha).imp_right fun ⟨g'', hg, ha⟩ ↦ ⟨g'', List.mem_cons_of_mem _ hg, ha⟩

theorem mem_intercalate {α : Type} {a x : α} {groups : List (List α)}
    (h : a ∈ [x].intercalate groups) : a = x ∨ ∃ g ∈ groups, a ∈ g := by
  cases groups with
  | nil => cases h
  | cons g gs =>
    obtain ⟨tail, heq, htail⟩ := exists_intercalate_eq x g gs
    rw [heq, List.mem_append] at h
    rcases h with h | h
    · exact .inr ⟨g, List.mem_cons_self, h⟩
    · exact (htail a h).imp_right fun ⟨g', hg, ha⟩ ↦ ⟨g', List.mem_cons_of_mem _ hg, ha⟩

theorem mapM_eq_some_map {α β γ : Type} {f : β → Option γ} {g : α → β} {h : α → γ} {as : List α}
    (hread : ∀ a, f (g a) = some (h a)) : (as.map g).mapM f = some (as.map h) := by
  have hpure : f ∘ g = fun a ↦ pure (h a) := funext hread
  rw [List.mapM_map, hpure, List.mapM_pure]
  rfl

/-- The marks of an entry of a pattern are colons. -/
theorem eq_of_mark_mem_fieldLexemes {field : String × String} {c : Char}
    (h : .mark c ∈ fieldLexemes field) : c = ':' := by
  unfold fieldLexemes at h
  split_ifs at h <;> simp at h <;> exact h

theorem entry?_fieldLexemes (field : String × String) : entry? (fieldLexemes field) = some field := by
  unfold fieldLexemes
  split_ifs with hshort hascii
  · rw [Bool.and_eq_true, decide_eq_true_iff] at hshort
    exact congrArg some (Prod.ext hshort.1.symm rfl)
  · rfl
  · rfl

theorem entries?_fieldLexemes (fs : List (String × String)) :
    entries? ([.mark ','].intercalate (fs.map fieldLexemes)) = some fs := by
  unfold entries?
  cases fs with
  | nil => rfl
  | cons f fs =>
    have hne : [.mark ','].intercalate ((f :: fs).map fieldLexemes) ≠ [] := by
      have hfirst : fieldLexemes f ≠ [] := by
        unfold fieldLexemes
        split_ifs <;> simp
      cases fs <;> simp [List.intercalate_cons_cons, hfirst]
    have hcomma : ∀ g ∈ (f :: fs).map fieldLexemes, Lexeme.mark ',' ∉ g := by
      intro g hg hmem
      obtain ⟨field, -, rfl⟩ := List.mem_map.mp hg
      exact absurd (eq_of_mark_mem_fieldLexemes hmem) (by decide)
    rw [if_neg hne, List.splitOn_intercalate _ hcomma (by simp),
      mapM_eq_some_map (h := id) entry?_fieldLexemes, List.map_id]

/-- A pattern is read up to its closing brace. -/
theorem constants?_pattern (fs : List (String × String)) (specifier : String) :
    constants? (.mark '{' :: ([.mark ','].intercalate (fs.map fieldLexemes)
        ++ .mark '}' :: .mark '=' :: callLexemes specifier))
      = some (fs.map fun field ↦ (field.2, .property (.loaded specifier) field.1)) := by
  have hinside : ∀ l ∈ [.mark ','].intercalate (fs.map fieldLexemes),
      (l != Lexeme.mark '}') = true := by
    intro l hl
    rw [bne_iff_ne]
    rintro rfl
    rcases mem_intercalate hl with heq | ⟨g, hg, hmem⟩
    · cases heq
    · obtain ⟨field, -, rfl⟩ := List.mem_map.mp hg
      exact absurd (eq_of_mark_mem_fieldLexemes hmem) (by decide)
  have hend : (Lexeme.mark '}' != .mark '}') = false := by decide
  have htake : ∀ rest : List Lexeme,
      ([.mark ','].intercalate (fs.map fieldLexemes) ++ .mark '}' :: rest).takeWhile
        (· != .mark '}') = [.mark ','].intercalate (fs.map fieldLexemes) := by
    intro rest
    rw [List.takeWhile_append_of_pos hinside, List.takeWhile_cons_of_neg (by simp), List.append_nil]
  have hdrop : ∀ rest : List Lexeme,
      ([.mark ','].intercalate (fs.map fieldLexemes) ++ .mark '}' :: rest).dropWhile
        (· != .mark '}') = .mark '}' :: rest := by
    intro rest
    rw [List.dropWhile_append_of_pos hinside, List.dropWhile_cons_of_neg (by simp)]
  simp only [constants?, htake, hdrop, entries?_fieldLexemes, Option.bind_some]
  rfl

/-- The properties that are taken in a binding are read as those of the reference. -/
theorem constant?_bindingLexemes (b : RuntimeImport) :
    constant? (bindingLexemes reference b) = some (b.localName, Value.bound (.name reference) b) := by
  cases b with
  | default n => rfl
  | wholeModule n => rfl
  | named imported n =>
    simp only [bindingLexemes, accessLexemes]
    split_ifs <;> rfl

theorem mark_not_mem_bindingLexemes {b : RuntimeImport} {c : Char} (hc : c ∉ ['=', '.', '[', ']']) :
    .mark c ∉ bindingLexemes reference b := by
  cases b with
  | named imported n =>
    simp only [bindingLexemes, accessLexemes]
    split_ifs <;> simp at hc ⊢ <;> tauto
  | _ => simp [bindingLexemes] at hc ⊢; try tauto

/-- A declaration without a pattern is read constant by constant. -/
theorem constants?_intercalate {n : String} {g : List Lexeme} {gs : List (List Lexeme)}
    (hcomma : ∀ g' ∈ (.name n :: g) :: gs, Lexeme.mark ',' ∉ g') :
    constants? ([.mark ','].intercalate ((.name n :: g) :: gs))
      = (((.name n :: g) :: gs).mapM constant?).map (resolveAll []) := by
  have hpattern : ∀ rest, [.mark ','].intercalate ((.name n :: g) :: gs) ≠ .mark '{' :: rest := by
    intro rest heq
    obtain ⟨tail, htail, -⟩ := exists_intercalate_eq (.mark ',') (.name n :: g) gs
    rw [htail] at heq
    cases heq
  rw [constants?, List.splitOn_intercalate _ hcomma (List.cons_ne_nil _ gs)]
  exact hpattern

/-- The constants of a statement get what they are bound to, if none of them takes the name of the
reference. -/
theorem resolveAll_bindings {whole : Value} {bs : List RuntimeImport}
    (hne : ∀ b ∈ bs, b.localName ≠ reference) {scope : List (String × Value)}
    (hscope : scope.lookup reference = some whole) :
    resolveAll scope (bs.map fun b ↦ (b.localName, Value.bound (.name reference) b))
      = bs.map fun b ↦ (b.localName, Value.bound whole b) := by
  induction bs generalizing scope with
  | nil => rfl
  | cons b bs ih =>
    obtain ⟨hb, hbs⟩ := List.forall_mem_cons.mp hne
    have hvalue : (Value.bound (.name reference) b).resolve scope = Value.bound whole b := by
      cases b <;> simp [Value.bound, Value.resolve, hscope]
    simp only [List.map_cons, resolveAll, hvalue]
    rw [ih hbs (by rw [List.lookup_cons, beq_false_of_ne hb.symm, hscope])]

theorem loadedIn_of_notMem {ls : List Lexeme} (h : Lexeme.mark '(' ∉ ls) : loadedIn ls = [] := by
  induction ls with
  | nil => rfl
  | cons l ls ih =>
    rw [List.mem_cons, not_or] at h
    rw [loadedIn, ih h.2]
    rintro f s rest - rfl
    exact h.2 List.mem_cons_self

/-- What stands in front of a bracket, up to a mark, loads nothing if no bracket opens in it. -/
theorem loadedIn_append_mark {as : List Lexeme} (has : Lexeme.mark '(' ∉ as) {c : Char} (hc : c ≠ '(')
    (bs : List Lexeme) : loadedIn (as ++ .mark c :: bs) = loadedIn bs := by
  induction as with
  | nil => rfl
  | cons a as ih =>
    rw [List.mem_cons, not_or] at has
    rw [List.cons_append, loadedIn, ih has.2]
    rintro f s rest - heq
    cases as with
    | nil =>
      cases heq
      exact hc rfl
    | cons a' as => exact has.2 ((List.cons.inj heq).1 ▸ List.mem_cons_self)

end Reading

namespace ImportStatement

variable {s : ImportStatement}

theorem loadedIn_lexemes (hguarded : s.isGuarded = false) :
    loadedIn (s.lexemes ++ [.mark ';']) = [s.specifier] := by
  cases s with
  | effect s => rfl
  | fields s fs =>
    -- No bracket stands in front of the call.
    have hfront : Lexeme.mark '(' ∉ .name "const" :: .mark '{'
        :: ([.mark ','].intercalate (fs.map fieldLexemes) ++ [.mark '}']) := by
      intro hmem
      have hmem : .mark '(' ∈ [.mark ','].intercalate (fs.map fieldLexemes) := by simpa using hmem
      rcases mem_intercalate hmem with heq | ⟨g, hg, hmem⟩
      · cases heq
      · obtain ⟨field, -, rfl⟩ := List.mem_map.mp hg
        exact absurd (eq_of_mark_mem_fieldLexemes hmem) (by decide)
    have hload := loadedIn_append_mark hfront (c := '=') (by decide) (callLexemes s ++ [.mark ';'])
    simp only [List.cons_append, List.append_assoc, List.nil_append] at hload
    simp only [lexemes, List.cons_append, List.append_assoc]
    rw [hload]
    rfl
  | defaultOnly helper s n => rfl
  | reference helper s n bs =>
    obtain ⟨tail, heq, htail⟩ := exists_intercalate_eq (.mark ',')
      (.name n :: .mark '=' :: .name helper :: .mark '(' :: (callLexemes s ++ [.mark ')']))
      (bs.map (bindingLexemes n))
    -- No bracket follows the first constant, which loads the module.
    have hbrackets : Lexeme.mark '(' ∉ tail ++ [.mark ';'] := by
      intro hmem
      have hmem : .mark '(' ∈ tail := by simpa using hmem
      rcases htail _ hmem with heq | ⟨g, hg, hmem⟩
      · cases heq
      · obtain ⟨b, -, rfl⟩ := List.mem_map.mp hg
        exact mark_not_mem_bindingLexemes (by decide) hmem
    have hload : loadedIn (.name "const" :: ((.name n :: .mark '=' :: .name helper :: .mark '('
        :: (callLexemes s ++ [.mark ')'])) ++ (tail ++ [.mark ';'])))
          = s :: loadedIn (tail ++ [.mark ';']) := rfl
    rw [lexemes, heq, List.cons_append, List.append_assoc, hload, loadedIn_of_notMem hbrackets]
    rfl
  | guarded text => cases hguarded

/-- Each statement declares its constants. -/
theorem sentence?_lexemes (hguarded : s.isGuarded = false)
    (hlocals : ∀ helper specifier n bs, s = .reference helper specifier n bs →
      ∀ b ∈ bs, b.localName ≠ n) : sentence? s.lexemes = some s.constants := by
  cases s with
  | effect s => rfl
  | fields s fs => exact constants?_pattern fs s
  | defaultOnly helper s n =>
    have hcomma : ∀ g ∈ [.name n :: .mark '=' :: .name helper :: .mark '('
        :: (callLexemes s ++ [.mark ')', .mark '.', .name "default"])], Lexeme.mark ',' ∉ g := by
      simp [callLexemes]
    exact constants?_intercalate hcomma
  | reference helper s n bs =>
    have hcomma : ∀ g ∈ (.name n :: .mark '=' :: .name helper :: .mark '('
        :: (callLexemes s ++ [.mark ')'])) :: bs.map (bindingLexemes n), Lexeme.mark ',' ∉ g := by
      refine List.forall_mem_cons.mpr ⟨by simp [callLexemes], List.forall_mem_map.mpr fun b _ ↦ ?_⟩
      exact mark_not_mem_bindingLexemes (by decide)
    have hfirst : constant? (.name n :: .mark '=' :: .name helper :: .mark '('
        :: (callLexemes s ++ [.mark ')'])) = some (n, .wrapped helper (.loaded s)) := rfl
    have hconstants := constants?_intercalate hcomma
    rw [List.mapM_cons, hfirst, mapM_eq_some_map fun b ↦ constant?_bindingLexemes b] at hconstants
    refine hconstants.trans (congrArg some ?_)
    exact congrArg (_ :: ·) (resolveAll_bindings (hlocals _ _ _ _ rfl) (List.lookup_cons_self ..))
  | guarded text => cases hguarded

/-- Each statement is read back: it loads its module, and it declares its constants. -/
theorem readStatement?_text (hwords : ∀ name ∈ s.names, Literal.IsWord name.toList)
    (hguarded : s.isGuarded = false)
    (hlocals : ∀ helper specifier n bs, s = .reference helper specifier n bs →
      ∀ b ∈ bs, b.localName ≠ n) :
    readStatement? s.text.toList = some ⟨[s.specifier], s.constants⟩ := by
  rw [readStatement?, lexemes?_text hwords hguarded, Option.bind_some,
    List.getLast?_concat, if_pos rfl, List.dropLast_concat,
    sentence?_lexemes hguarded hlocals, loadedIn_lexemes hguarded]
  rfl

end ImportStatement

end Downlevel.CommonJs
