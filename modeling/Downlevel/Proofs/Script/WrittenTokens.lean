import Downlevel.Proofs.Script.Scanner
import Downlevel.Proofs.Text.Letter
import Downlevel.Proofs.Text.Quoted

/-!
# The tokens of written names and strings

The scanner finds in a text what has been written there: a quoted string gives a string token with
the characters of the string, whatever they are, a name gives a word, and a mark that nothing after
it can be taken together with gives that mark. In each case the scanner goes on exactly behind it.
-/

namespace Downlevel.Script

open Text

namespace Literal

/-! ## Strings -/

theorem digitValue_hexDigit {n : Nat} (h : n < 16) :
    digitValue 16 (Quoted.hexDigit n) = some n := by
  have hall : ∀ n < 16, digitValue 16 (Quoted.hexDigit n) = some n := by decide
  exact hall n h

theorem utf8Size_hexDigit {n : Nat} (h : n < 16) : (Quoted.hexDigit n).utf8Size = 1 := by
  have hall : ∀ n < 16, (Quoted.hexDigit n).utf8Size = 1 := by decide
  exact hall n h

/-- An escape is read as the character it was written for. -/
theorem escape_of_quoted {c : Char} {escaped : List Char} (h : Quoted.escape c = '\\' :: escaped)
    (octal : Bool) (cs : List Char) :
    escape octal (escaped ++ cs) = some ([c.toNat], width escaped, cs) := by
  unfold Quoted.escape at h
  split_ifs at h with hquote hslash hfeed htab hreturn hback hform hcontrol
  · cases h; rw [hquote]; rfl
  · cases h; rw [hslash]; rfl
  · cases h; rw [hfeed]; rfl
  · cases h; rw [htab]; rfl
  · cases h; rw [hreturn]; rfl
  · cases h; rw [hback]; rfl
  · cases h; rw [hform]; rfl
  · cases h
    have hzero : digitValue 16 '0' = some 0 := by decide
    have hsum : c.toNat / 16 * 16 + c.toNat % 16 = c.toNat := by omega
    have hhigh : c.toNat / 16 < 16 := by omega
    have hlow : c.toNat % 16 < 16 := by omega
    simp [escape, unicodeEscape, hexDigits, hzero, digitValue_hexDigit hhigh,
      digitValue_hexDigit hlow, hsum, width, utf8Size_hexDigit hhigh, utf8Size_hexDigit hlow]
    rfl
  · exact absurd (List.cons.inj h).1 hslash

/-- One step of the reader of strings goes over the written form of one character. -/
theorem stringBody_escape_append (f : Char) (fuel : List Char) (c : Char) (cs : List Char) :
    stringBody '"' (f :: fuel) (Quoted.escape c ++ cs)
      = (stringBody '"' fuel cs).map fun (points, w, rest) ↦
        (c.toNat :: points, width (Quoted.escape c) + w, rest) := by
  have hslash : '\\' ≠ '"' := by decide
  rcases Quoted.escape_cases c with ⟨escaped, h⟩ | ⟨hraw, hquote, hback, hcontrol⟩
  · rw [h, List.cons_append, stringBody, if_neg hslash, if_neg (by decide), if_pos rfl,
      escape_of_quoted h]
    cases hrest : stringBody '"' fuel cs with
    | none => simp [hrest]
    | some x => simp [hrest, width, utf8Size_backslash]; omega
  · have hline : ¬(c = '\n' ∨ c = '\r') := by
      rintro (rfl | rfl) <;> exact absurd hcontrol (by decide)
    rw [hraw, List.singleton_append, stringBody, if_neg hquote, if_neg (by simpa using hline),
      if_neg hback]
    cases hrest : stringBody '"' fuel cs with
    | none => simp [hrest]
    | some x => simp [hrest, width]

theorem stringBody_append (text rest : List Char) {fuel : List Char}
    (h : text.length < fuel.length) :
    stringBody '"' fuel (text.flatMap Quoted.escape ++ '"' :: rest)
      = some (text.map Char.toNat, width (text.flatMap Quoted.escape) + 1, rest) := by
  induction text generalizing fuel with
  | nil =>
    obtain ⟨f, fuel, rfl⟩ := List.exists_cons_of_length_pos h
    simp [stringBody, width]
  | cons c text ih =>
    obtain ⟨f, fuel, rfl⟩ := List.exists_cons_of_length_pos (Nat.zero_lt_of_lt h)
    rw [List.flatMap_cons, List.append_assoc, stringBody_escape_append, ih (by simpa using h)]
    simp [width_append, Nat.add_assoc]

/-- No character is a surrogate, so code points are never joined. -/
theorem joinPairs_map_toNat (text : List Char) :
    joinPairs (text.map Char.toNat) = text.map Char.toNat := by
  induction text with
  | nil => rfl
  | cons c text ih =>
    cases text with
    | nil => rfl
    | cons d text =>
      have hvalid :
          ¬(0xd800 ≤ c.toNat ∧ c.toNat < 0xdc00 ∧ 0xdc00 ≤ d.toNat ∧ d.toNat < 0xe000) := by
        have := toNat_lt_or_le c
        omega
      rw [List.map_cons, List.map_cons, joinPairs, if_neg hvalid, ← List.map_cons, ih]

theorem length_le_length_flatMap_escape (text : List Char) :
    text.length ≤ (text.flatMap Quoted.escape).length := by
  induction text with
  | nil => exact Nat.le_refl 0
  | cons c text ih =>
    have hpos : 0 < (Quoted.escape c).length := by
      rcases Quoted.escape_cases c with ⟨escaped, h⟩ | ⟨h, -⟩ <;> simp [h]
    simp only [List.flatMap_cons, List.length_append, List.length_cons]
    omega

/-- A written string is read with all its characters, whatever follows it. -/
theorem string_append (text rest : List Char) :
    string '"' (text.flatMap Quoted.escape ++ '"' :: rest)
      = some (text.map Char.toNat, width (text.flatMap Quoted.escape) + 1, rest) := by
  have hlength := length_le_length_flatMap_escape text
  have hfuel : text.length < (text.flatMap Quoted.escape ++ '"' :: rest).length := by
    rw [List.length_append, List.length_cons]
    omega
  rw [string, stringBody_append _ _ hfuel, Option.map_some]
  dsimp only
  rw [joinPairs_map_toNat]

/-! ## Names -/

/-- What follows a name does not go on with it, not even by an escape. -/
def EndsName (rest : List Char) : Prop := ∀ c ∈ rest.head?, isNamePart c = false ∧ c ≠ '\\'

theorem nameBody_append {text rest fuel : List Char} (htext : ∀ c ∈ text, isNamePart c = true)
    (hrest : EndsName rest) (h : text.length ≤ fuel.length) :
    nameBody fuel false (text ++ rest) = some ((text, false), width text, rest) := by
  induction text generalizing fuel with
  | nil =>
    cases fuel with
    | nil => rfl
    | cons f fuel =>
      cases rest with
      | nil => rfl
      | cons c rest =>
        obtain ⟨hc, hslash⟩ := hrest c rfl
        rw [List.nil_append, nameBody]
        · simp [hc, width]
        · rintro _ rfl; exact absurd rfl hslash
        · rintro rfl; exact absurd rfl hslash
  | cons c text ih =>
    obtain ⟨f, fuel, rfl⟩ :=
      List.exists_cons_of_length_pos (Nat.lt_of_lt_of_le (Nat.zero_lt_succ _) h)
    have hc : isNamePart c = true := htext c List.mem_cons_self
    have hslash : c ≠ '\\' := by
      rintro rfl
      exact absurd hc (by decide)
    rw [List.cons_append, nameBody]
    · simp [hc, ih (fun d hd ↦ htext d (List.mem_cons_of_mem c hd)) (by simpa using h), width]
    · rintro _ rfl; exact absurd rfl hslash
    · rintro rfl; exact absurd rfl hslash

/-- A written name is read as it is, if what follows does not go on with it. -/
theorem name_append {c : Char} {text rest : List Char} (hc : isNameStart c = true)
    (htext : ∀ d ∈ text, isNamePart d = true) (hrest : EndsName rest) :
    name (c :: text ++ rest)
      = some ((String.ofList (c :: text), false), width (c :: text), rest) := by
  have hslash : c ≠ '\\' := by
    rintro rfl
    exact absurd hc (by decide)
  rw [name, List.cons_append, nameBody]
  · simp [hc, nameBody_append htext hrest, width]
  · rintro _ rfl; exact absurd rfl hslash
  · rintro rfl; exact absurd rfl hslash

end Literal

namespace Scanner

open Literal

/-! ## Tokens -/

/-- A text begins with a token of a kind, without anything in front of it, and goes on with
`rest`. -/
def Begins (cs : List Char) (kind : TokenKind) (rest : List Char) : Prop :=
  ∀ opens isFirst pos,
    (next opens isFirst pos cs).1.kind = kind ∧ (next opens isFirst pos cs).2 = rest

theorem begins_nil : Begins [] .finish [] := fun _ _ _ ↦ ⟨rfl, rfl⟩

/-- The scanner does not skip a character that is neither blank nor a slash. -/
theorem begins_of_body {c : Char} {cs rest : List Char} {kind : TokenKind} {w : Nat}
    (hslash : c ≠ '/') (hend : isLineEnd c = false) (hblank : isBlank c = false)
    (h : ∀ pos, body pos (c :: cs) = (kind, w, rest)) : Begins (c :: cs) kind rest := by
  intro opens isFirst pos
  have hskip : ∀ g : Gap, g.rest = c :: cs → skip opens (c :: cs) g = g := by
    intro g hg
    rw [skip.eq_def]
    simp [hg, hslash, hend, hblank]
  rw [next, hskip _ rfl]
  simp [h]

/-- A written string is a token with all its characters. -/
theorem begins_string (text rest : List Char) :
    ∃ raw, Begins (Quoted.encode text ++ rest) (.string (text.map Char.toNat) raw) rest := by
  have hencode :
      Quoted.encode text ++ rest = '"' :: (text.flatMap Quoted.escape ++ '"' :: rest) := by
    simp [Quoted.encode]
  rw [hencode]
  refine ⟨String.ofList (takeBytes (text.flatMap Quoted.escape ++ '"' :: rest)
    (width (text.flatMap Quoted.escape))), begins_of_body
    (w := width (text.flatMap Quoted.escape) + 2) (by decide) (by decide) (by decide) fun pos ↦ ?_⟩
  have hdigit : '"'.isDigit = false := by decide
  simp [body, string_append, hdigit]

theorem mem_marks_of_mark? {cs : List Char} {m : String} (h : mark? cs = some m) : m ∈ marks := by
  unfold mark? at h
  exact List.mem_of_find?_eq_some h

/-- A piece of punctuation starts with the first character of the text. -/
theorem head?_of_mark? {c : Char} {cs : List Char} {m : String}
    (h : mark? (c :: cs) = some m) : m.toList.head? = some c := by
  obtain ⟨hm, -, hlength⟩ := takes_mark h
  cases hlist : m.toList with
  | nil => simp [← String.length_toList, hlist] at hlength
  | cons d ds =>
    rw [hlist, List.cons_append] at hm
    rw [(List.cons.inj hm).1, List.head?_cons]

/-- No piece of punctuation starts like a name. -/
theorem mark?_eq_none {c : Char} (hc : isNamePart c = true) (cs : List Char) :
    mark? (c :: cs) = none := by
  have hstarts : marks.all (fun m ↦ m.toList.head?.any fun d ↦ !isNamePart d) = true := by decide
  cases h : mark? (c :: cs) with
  | none => rfl
  | some m =>
    have hfirst := List.all_eq_true.1 hstarts m (mem_marks_of_mark? h)
    simp [head?_of_mark? h, hc] at hfirst

/-- An ASCII name is a token, if what follows does not go on with it. -/
theorem begins_name {s : String} {rest : List Char} (h : isAsciiName s = true)
    (hrest : EndsName rest) : Begins (s.toList ++ rest) (.word s false) rest := by
  obtain ⟨c, cs, hs, hstart, hcs⟩ := exists_of_isAsciiName h
  obtain ⟨hblank, hend, hdigit⟩ := isBlank_of_isAsciiNameStart hstart
  have hread : name (c :: (cs ++ rest)) = some ((s, false), width (c :: cs), rest) := by
    rw [← List.cons_append, name_append (isNameStart_of_isAsciiNameStart hstart)
      (fun d hd ↦ isNamePart_of_isAsciiNamePart (hcs d hd)) hrest, ← hs, String.ofList_toList]
  have hmark : mark? (c :: (cs ++ rest)) = none :=
    mark?_eq_none (isNamePart_of_isAsciiNamePart (isAsciiNamePart_of_isAsciiNameStart hstart)) _
  have hne : ∀ d : Char, isAsciiNameStart d = false → c ≠ d := by
    rintro d hd rfl
    rw [hstart] at hd
    cases hd
  rw [hs, List.cons_append]
  refine begins_of_body (w := width (c :: cs)) (hne '/' (by decide)) hend hblank fun pos ↦ ?_
  simp [body, hdigit, hmark, hread, hne '.' (by decide), hne '"' (by decide),
    hne '\'' (by decide), hne '\x60' (by decide), hne '#' (by decide)]

/-- A piece of punctuation of one character is a token, if what follows does not go on with it.
`longer` are the characters that would. -/
theorem begins_mark {c : Char} (longer : List Char) {cs : List Char}
    (hmem : String.singleton c ∈ marks)
    (hlonger : marks.all (fun m ↦ m.toList.head? != some c || m.toList == [c] ||
      longer.any fun d ↦ m.toList[1]? == some d) = true)
    (hplain : (c.isDigit || isLineEnd c || isBlank c || ['/', '"', '\'', '\x60', '#'].contains c)
      = false)
    (hcs : longer.all (fun d ↦ cs.head? != some d) = true)
    (hpoint : c = '.' → startsWithDigit cs = false) :
    Begins (c :: cs) (.mark (String.singleton c)) cs := by
  have hmark : mark? (c :: cs) = some (String.singleton c) := by
    cases h : mark? (c :: cs) with
    | none =>
      unfold mark? at h
      have hfits := List.find?_eq_none.1 h _ hmem
      have hoptional : String.singleton c ≠ "?." := fun heq ↦ by
        have hlength := congrArg (fun s ↦ s.toList.length) heq
        simp at hlength
      simp [hoptional] at hfits
    | some m =>
      -- A longer mark would go on with a character that does not follow.
      have hm := (takes_mark h).1
      have hm' := List.all_eq_true.1 hlonger m (mem_marks_of_mark? h)
      simp only [head?_of_mark? h, bne_self_eq_false, Bool.false_or, Bool.or_eq_true, beq_iff_eq,
        List.any_eq_true] at hm'
      rcases hm' with hsingle | ⟨d, hd, hsecond⟩
      · rw [← String.ofList_toList (s := m), hsingle]
        rfl
      · refine absurd ?_ (bne_iff_ne.1 (List.all_eq_true.1 hcs d hd))
        rw [← hsecond, ← List.getElem?_append_left (List.getElem?_eq_some_iff.1 hsecond).1, ← hm]
        cases cs <;> rfl
  simp only [Bool.or_eq_false_iff] at hplain
  obtain ⟨⟨⟨hdigit, hend⟩, hblank⟩, hother⟩ := hplain
  simp at hother
  refine begins_of_body (w := 1) hother.1 hend hblank fun pos ↦ ?_
  by_cases hc : c = '.'
  · simp [body, hdigit, hother, hmark, hpoint hc]
  · simp [body, hdigit, hother, hmark, hc]

/-! ## Pieces of short scripts -/

theorem endsName_cons {a : Char} (ha : isNamePart a = false) (hslash : a ≠ '\\')
    (rest : List Char) : EndsName (a :: rest) := by
  intro c hc
  obtain rfl : a = c := by simpa using hc
  exact ⟨ha, hslash⟩

theorem begins_x {rest : List Char} (h : EndsName rest) :
    Begins ('x' :: rest) (.word "x" false) rest := by
  have hx : isAsciiName "x" = true := by decide
  simpa using begins_name hx h

theorem begins_last {s : String} (h : isAsciiName s = true) :
    Begins s.toList (.word s false) [] := by
  have hbegins : Begins (s.toList ++ []) (.word s false) [] := begins_name h nofun
  rwa [List.append_nil] at hbegins

theorem begins_point {rest : List Char} (hpoint : rest.head? ≠ some '.')
    (hdigit : startsWithDigit rest = false) : Begins ('.' :: rest) (.mark ".") rest :=
  begins_mark ['.'] (by decide) (by decide) (by decide) (by simpa using hpoint) fun _ ↦ hdigit

/-- A mark with which no longer one starts. -/
theorem begins_loneMark {c : Char} (h : c ∈ ['[', ']', '\x7b', '\x7d', ':']) (rest : List Char) :
    Begins (c :: rest) (.mark (String.singleton c)) rest := by
  simp only [List.mem_cons, List.not_mem_nil, or_false] at h
  rcases h with rfl | rfl | rfl | rfl | rfl <;>
    exact begins_mark [] (by decide) (by decide) (by decide) rfl nofun

end Scanner

end Downlevel.Script
