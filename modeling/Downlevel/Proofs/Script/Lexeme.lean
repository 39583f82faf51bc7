import Downlevel.Proofs.Script.Literal
import Downlevel.Proofs.Text.Quoted
import Downlevel.Script.Property
import Mathlib.Data.List.Induction

/-!
# Lexemes of written texts

The texts that a conversion writes are made of words, double-quoted strings and single marks. This is
the reading of such a text that does not know how it was written: the longest runs of characters of
names are words, a quote opens a string in which escapes are undone up to the next bare quote, blanks
and line ends only separate, and every other character is a mark of its own. The reader goes over the
text once, with a place between, in a word or in a string.

Two texts next to each other have the lexemes of both, unless a word would run on from the one into
the other. So the lexemes of a text are found from those of the parts it is put together from.
-/

namespace Downlevel.Script

open Text

/-- A word, a string with its escapes undone, or a single mark. -/
inductive Lexeme where
  | name (text : String)
  | string (value : String)
  | mark (c : Char)
  deriving DecidableEq, Inhabited, Repr

namespace Lexeme

/-! ## The reader -/

/-- Where the reader stands, with what it has read of the lexeme it stands in. -/
inductive Place where
  | between
  | inWord (read : List Char)
  | inString (read : List Char)
  /-- Behind a backslash. -/
  | inEscape (read : List Char)
  /-- Behind some of the four digits of a character code. -/
  | inCode (read digits : List Char)
  deriving DecidableEq, Inhabited, Repr

/-- The number that hexadecimal digits spell. -/
def codeOf (digits : List Char) : Nat :=
  digits.foldl (fun n d ↦ n * 16 + Quoted.hexValue d) 0

/-- Goes over a character between two lexemes. -/
def enter (c : Char) : List Lexeme × Place :=
  if isNamePart c then ([], .inWord [c])
  else if c = '"' then ([], .inString [])
  else if isBlank c || isLineEnd c then ([], .between)
  else ([.mark c], .between)

/-- Goes over a character: the lexemes that end before it or with it, and the place behind it. -/
def step : Place → Char → List Lexeme × Place
  | .between, c => enter c
  | .inWord w, c =>
    if isNamePart c then ([], .inWord (w ++ [c]))
    else (.name (String.ofList w) :: (enter c).1, (enter c).2)
  | .inString w, c =>
    if c = '"' then ([.string (String.ofList w)], .between)
    else if c = '\\' then ([], .inEscape w)
    else ([], .inString (w ++ [c]))
  | .inEscape w, c =>
    if c = 'u' then ([], .inCode w []) else ([], .inString (w ++ [Quoted.unescape c]))
  | .inCode w ds, c =>
    if ds.length < 3 then ([], .inCode w (ds ++ [c]))
    else ([], .inString (w ++ [Char.ofNat (codeOf (ds ++ [c]))]))

/-- Goes over a text: the lexemes that end in it, and the place behind it. -/
def run : Place → List Char → List Lexeme × Place
  | p, [] => ([], p)
  | p, c :: cs => ((step p c).1 ++ (run (step p c).2 cs).1, (run (step p c).2 cs).2)

/-- The lexemes that are still to come at the end of a text. There is none if a string is left
open. -/
def finish : Place → Option (List Lexeme)
  | .between => some []
  | .inWord w => some [.name (String.ofList w)]
  | _ => none

/-- The lexemes of a text whose strings are all closed. -/
def lexemes? (text : List Char) : Option (List Lexeme) :=
  (finish (run .between text).2).map ((run .between text).1 ++ ·)

/-! ## Parts of a text -/

variable {as bs w : List Char} {ls us : List Lexeme} {p : Place}

theorem run_append (p : Place) (as bs : List Char) :
    run p (as ++ bs)
      = ((run p as).1 ++ (run (run p as).2 bs).1, (run (run p as).2 bs).2) := by
  induction as generalizing p with
  | nil => rfl
  | cons c cs ih => simp [run, ih]

/-- The reader stands in a word only behind a character of a word. -/
theorem isNamePart_of_step {c : Char} (h : (step p c).2 = .inWord w) : isNamePart c = true := by
  have henter : (enter c).2 = .inWord w → isNamePart c = true := by
    unfold enter
    split_ifs <;> simp [*]
  cases p with
  | between => exact henter h
  | inWord v =>
    by_cases hc : isNamePart c = true
    · exact hc
    · simp only [step, if_neg hc] at h
      exact henter h
  | inString v =>
    simp only [step] at h
    split_ifs at h
  | inEscape v =>
    simp only [step] at h
    split_ifs at h
  | inCode v ds =>
    simp only [step] at h
    split_ifs at h

theorem getLast?_of_run (h : (run .between as).2 = .inWord w) : as.getLast?.any isNamePart = true := by
  induction as using List.reverseRecOn with
  | nil => cases h
  | append_singleton cs c _ =>
    rw [run_append] at h
    rw [List.getLast?_append_of_ne_nil cs (List.cons_ne_nil c [])]
    exact isNamePart_of_step h

/-- A text that begins with something else than a word is read in the same way behind a word as
between two lexemes. -/
theorem finish_run (hstart : bs.head?.any isNamePart = false) (hp : finish p = some ls) :
    (finish (run p bs).2).map ((run p bs).1 ++ ·) = (lexemes? bs).map (ls ++ ·) := by
  unfold lexemes?
  cases p with
  | between =>
    cases hp
    rw [Option.map_map]
    rfl
  | inWord w =>
    cases hp
    cases bs with
    | nil => rfl
    | cons c cs =>
      have hc : ¬isNamePart c = true := by simpa using hstart
      simp only [run, step, if_neg hc, Option.map_map]
      rfl
  | _ => cases hp

/-- Two texts have the lexemes of both, if the second one begins with something else than a word. -/
theorem lexemes?_append (has : lexemes? as = some ls) (hbs : lexemes? bs = some us)
    (hstart : bs.head?.any isNamePart = false) : lexemes? (as ++ bs) = some (ls ++ us) := by
  obtain ⟨rest, hrest, rfl⟩ := Option.map_eq_some_iff.mp has
  have hrun := finish_run hstart hrest
  rw [hbs] at hrun
  obtain ⟨behind, hbehind, heq⟩ := Option.map_eq_some_iff.mp hrun
  rw [lexemes?, run_append, hbehind, Option.map_some, List.append_assoc, heq, List.append_assoc]

/-- Two texts have the lexemes of both, if the first one ends in something else than a word. -/
theorem lexemes?_append_of_end (has : lexemes? as = some ls) (hbs : lexemes? bs = some us)
    (hend : as.getLast?.any isNamePart = false) : lexemes? (as ++ bs) = some (ls ++ us) := by
  obtain ⟨rest, hrest, rfl⟩ := Option.map_eq_some_iff.mp has
  have hplace : (run .between as).2 = .between := by
    cases hp : (run .between as).2 with
    | between => rfl
    | inWord w => rw [getLast?_of_run hp] at hend; cases hend
    | _ => rw [hp] at hrest; cases hrest
  rw [hplace] at hrest
  cases hrest
  obtain ⟨behind, hbehind, rfl⟩ := Option.map_eq_some_iff.mp hbs
  rw [lexemes?, run_append, hplace, hbehind, Option.map_some, List.append_nil, List.append_assoc]

/-! ## Words and strings -/

theorem run_inWord (h : ∀ c ∈ as, isNamePart c = true) (w : List Char) :
    run (.inWord w) as = ([], .inWord (w ++ as)) := by
  induction as generalizing w with
  | nil => simp [run]
  | cons c cs ih =>
    obtain ⟨hc, hcs⟩ := List.forall_mem_cons.mp h
    simp [run, step, hc, ih hcs]

theorem lexemes?_word (h : Literal.IsWord w) : lexemes? w = some [.name (String.ofList w)] := by
  obtain ⟨hne, hparts⟩ := h
  cases w with
  | nil => exact absurd rfl hne
  | cons c cs =>
    obtain ⟨hc, hcs⟩ := List.forall_mem_cons.mp hparts
    simp [lexemes?, run, step, enter, hc, run_inWord hcs, finish]

/-- The reader undoes the escaped form of one character. -/
theorem run_escape (w : List Char) (c : Char) :
    run (.inString w) (Quoted.escape c) = ([], .inString (w ++ [c])) := by
  unfold Quoted.escape
  split_ifs with hquote hslash hfeed htab hreturn hback hform hcontrol
  · rw [hquote]; rfl
  · rw [hslash]; rfl
  · rw [hfeed]; rfl
  · rw [htab]; rfl
  · rw [hreturn]; rfl
  · rw [hback]; rfl
  · rw [hform]; rfl
  · -- The last two of the four digits are those of the code of the character.
    have hzero : Quoted.hexValue '0' = 0 := rfl
    have hcode : codeOf ['0', '0', Quoted.hexDigit (c.toNat / 16), Quoted.hexDigit (c.toNat % 16)]
        = c.toNat := by
      simp only [codeOf, List.foldl_cons, List.foldl_nil, hzero,
        Quoted.hexValue_hexDigit (by omega : c.toNat / 16 < 16),
        Quoted.hexValue_hexDigit (by omega : c.toNat % 16 < 16)]
      omega
    simp [run, step, hcode]
  · simp [run, step, hquote, hslash]

theorem run_escapes (s w : List Char) :
    run (.inString w) (s.flatMap Quoted.escape) = ([], .inString (w ++ s)) := by
  induction s generalizing w with
  | nil => simp [run]
  | cons c cs ih => simp [run_append, run_escape, ih]

/-- A quoted string is one lexeme, the string itself. -/
theorem lexemes?_stringLiteral (s : String) :
    lexemes? (stringLiteral s).toList = some [.string s] := by
  have hquote : ∀ w, run (.inString w) ['"'] = ([.string (String.ofList w)], .between) :=
    fun _ ↦ rfl
  have hopen : run .between ('"' :: s.toList.flatMap Quoted.escape)
      = run (.inString []) (s.toList.flatMap Quoted.escape) := rfl
  rw [stringLiteral, Quoted.quote, String.toList_ofList, Quoted.encode, lexemes?, run_append, hopen,
    run_escapes, hquote]
  simp [finish]

/-! ## Identifiers -/

/-- Whether a word between other lexemes is the name of a property: it stands behind a point, or it
is a key in a list of fields. -/
def isPropertyName (before : Option Lexeme) (rest : List Lexeme) : Bool :=
  before == some (.mark '.') ||
    (before == some (.mark '{') || before == some (.mark ',')) && rest.head? == some (.mark ':')

/-- The words that are not names of properties, behind a lexeme. -/
def identifiersBehind : Option Lexeme → List Lexeme → List String
  | _, [] => []
  | before, .name n :: rest =>
    (if isPropertyName before rest then [] else [n]) ++ identifiersBehind (some (.name n)) rest
  | _, l :: rest => identifiersBehind (some l) rest

/-- The words of a text that are not names of properties. -/
def identifiers (ls : List Lexeme) : List String := identifiersBehind none ls

theorem name_mem_of_mem_identifiersBehind {n : String} {before : Option Lexeme}
    (h : n ∈ identifiersBehind before ls) : .name n ∈ ls := by
  induction ls generalizing before with
  | nil => cases h
  | cons l rest ih =>
    have hrest : n ∈ identifiersBehind (some l) rest → .name n ∈ l :: rest := fun h ↦
      List.mem_cons_of_mem _ (ih h)
    cases l with
    | name n' =>
      rcases List.mem_append.mp h with h | h
      · split at h
        · cases h
        · rw [List.mem_singleton.mp h]
          exact List.mem_cons_self
      · exact hrest h
    | _ => exact hrest h

/-- A text falls apart at a mark, unless that makes a key of the word in front of it. -/
theorem identifiersBehind_append {c : Char} (hc : c ≠ ':') (before : Option Lexeme)
    (ls us : List Lexeme) :
    identifiersBehind before (ls ++ .mark c :: us)
      = identifiersBehind before ls ++ identifiersBehind (some (.mark c)) us := by
  induction ls generalizing before with
  | nil => rfl
  | cons l rest ih =>
    cases l with
    | name n =>
      have hkey : isPropertyName before (rest ++ .mark c :: us) = isPropertyName before rest := by
        cases rest with
        | nil => simp [isPropertyName, hc]
        | cons l' rest => rfl
      simp only [List.cons_append, identifiersBehind, hkey, ih, List.append_assoc]
    | _ => exact ih _

/-- Texts with commas between them have the identifiers of the texts. -/
theorem identifiersBehind_intercalate {α : Type} (f : α → List Lexeme) (before : Option Lexeme)
    (as : List Lexeme) (bs : List α) :
    identifiersBehind before ([.mark ','].intercalate (as :: bs.map f))
      = identifiersBehind before as ++ bs.flatMap fun b ↦ identifiersBehind (some (.mark ',')) (f b) := by
  induction bs generalizing before as with
  | nil => simp
  | cons b bs ih =>
    rw [List.map_cons, List.intercalate_cons_cons, List.append_assoc, List.singleton_append,
      identifiersBehind_append (by decide), ih, List.flatMap_cons]

end Lexeme

end Downlevel.Script
