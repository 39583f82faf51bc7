import Downlevel.Proofs.Text.Boundary
import Downlevel.Script.Literal
import Mathlib.Data.List.TakeDrop

/-!
# What scanners take

A scanner of literals counts the bytes it takes beside the characters it leaves. The two agree: what
is left is the text behind that many bytes, and these are whole characters.
-/

namespace Downlevel.Script.Literal

open Text

/-- What is left of a text behind whole characters that take a number of bytes. -/
def Takes (cs : List Char) (w : Nat) (rest : List Char) : Prop :=
  ∃ taken, cs = taken ++ rest ∧ width taken = w

section Takes

variable {cs rest rest' : List Char} {w w' : Nat} {c : Char}

theorem Takes.nil (cs : List Char) : Takes cs 0 cs := ⟨[], rfl, rfl⟩

theorem Takes.cons (h : Takes cs w rest) (c : Char) : Takes (c :: cs) (c.utf8Size + w) rest := by
  obtain ⟨taken, rfl, rfl⟩ := h
  exact ⟨c :: taken, rfl, rfl⟩

theorem Takes.trans (h : Takes cs w rest) (h' : Takes rest w' rest') :
    Takes cs (w + w') rest' := by
  obtain ⟨taken, rfl, rfl⟩ := h
  obtain ⟨taken', rfl, rfl⟩ := h'
  exact ⟨taken ++ taken', (List.append_assoc ..).symm, width_append taken taken'⟩

theorem Takes.congr (h : Takes cs w rest) (hw : w = w') : Takes cs w' rest := hw ▸ h

/-- A character of one byte in front. -/
theorem Takes.cons_ascii (h : Takes cs w rest) (hc : c.utf8Size = 1) :
    Takes (c :: cs) (w + 1) rest := by
  have hcons := h.cons c
  rwa [hc, Nat.add_comm] at hcons

theorem utf8Size_eq_one (h : c.toNat < 128) : c.utf8Size = 1 :=
  Char.utf8Size_eq_one_iff.mpr (UInt32.le_iff_toNat_le.mpr (Nat.le_of_lt_succ h))

theorem utf8Size_of_le {d : Char} (h : c ≤ d) (hd : d.toNat < 128) : c.utf8Size = 1 :=
  utf8Size_eq_one (Nat.lt_of_le_of_lt (UInt32.le_iff_toNat_le.mp h) hd)

theorem utf8Size_of_isDigit (h : c.isDigit = true) : c.utf8Size = 1 := by
  unfold Char.isDigit at h
  rw [Bool.and_eq_true, decide_eq_true_iff, decide_eq_true_iff] at h
  exact utf8Size_of_le (d := '9') h.2 (by decide)

/-- Digits in a base of at most 16 take one byte. -/
theorem utf8Size_of_digitValue {base d : Nat} (hbase : base ≤ 16)
    (h : digitValue base c = some d) : c.utf8Size = 1 := by
  unfold digitValue at h
  dsimp only at h
  by_cases hdecimal : '0' ≤ c ∧ c ≤ '9'
  · exact utf8Size_of_le hdecimal.2 (by decide)
  by_cases hlower : 'a' ≤ c ∧ c ≤ 'f'
  · exact utf8Size_of_le hlower.2 (by decide)
  by_cases hupper : 'A' ≤ c ∧ c ≤ 'F'
  · exact utf8Size_of_le hupper.2 (by decide)
  rw [if_neg hdecimal, if_neg hlower, if_neg hupper, if_neg (by omega)] at h
  cases h

end Takes

theorem utf8Size_backslash : '\\'.utf8Size = 1 := rfl

/-! ## Escapes -/

theorem takes_hexDigits {n value v w : Nat} {cs rest : List Char}
    (h : hexDigits n value cs = some (v, w, rest)) : Takes cs w rest := by
  induction n generalizing value cs w with
  | zero =>
    cases h
    exact .nil _
  | succ n ih =>
    cases cs with
    | nil => cases h
    | cons c cs =>
      simp only [hexDigits, Option.bind_eq_bind, Option.bind_eq_some_iff] at h
      obtain ⟨d, hd, ⟨v', w', rest'⟩, hmore, h⟩ := h
      cases h
      exact (ih hmore).cons_ascii (utf8Size_of_digitValue (Nat.le_refl _) hd)

theorem takes_bracedHex {started : Bool} {value v w : Nat} {cs rest : List Char}
    (h : bracedHex started value cs = some (v, w, rest)) : Takes cs w rest := by
  induction cs generalizing started value w with
  | nil => cases h
  | cons c cs ih =>
    rw [bracedHex] at h
    split at h
    · next hbrace =>
      split at h
      · cases h
        exact (Takes.nil _).cons_ascii (by rw [hbrace]; rfl)
      · cases h
    · simp only [Option.bind_eq_bind, Option.bind_eq_some_iff] at h
      obtain ⟨d, hd, h⟩ := h
      split at h
      · cases h
      · simp only [Option.bind_eq_some_iff] at h
        obtain ⟨⟨v', w', rest'⟩, hmore, h⟩ := h
        cases h
        exact (ih hmore).cons_ascii (utf8Size_of_digitValue (Nat.le_refl _) hd)

theorem takes_unicodeEscape {cs rest : List Char} {v w : Nat}
    (h : unicodeEscape cs = some (v, w, rest)) : Takes cs w rest := by
  unfold unicodeEscape at h
  split at h
  · obtain ⟨⟨v', w', rest'⟩, hhex, h⟩ := Option.map_eq_some_iff.mp h
    cases h
    exact (takes_bracedHex hhex).cons_ascii rfl
  · exact takes_hexDigits h

theorem takes_octalDigits (n value : Nat) (cs : List Char) :
    Takes cs (octalDigits n value cs).2.1 (octalDigits n value cs).2.2 := by
  induction n generalizing value cs with
  | zero => exact .nil cs
  | succ n ih =>
    cases cs with
    | nil => exact .nil []
    | cons c cs =>
      rw [octalDigits]
      split
      · next d hd => exact (ih _ cs).cons_ascii (utf8Size_of_digitValue (by decide) hd)
      · exact .nil _

theorem takes_escape {octal : Bool} {cs rest : List Char} {w : Nat} {points : List Nat}
    (h : escape octal cs = some (points, w, rest)) : Takes cs w rest := by
  unfold escape at h
  split at h
  · cases h
  · obtain ⟨⟨v', w', rest'⟩, hhex, h⟩ := Option.map_eq_some_iff.mp h
    cases h
    exact (takes_hexDigits hhex).cons_ascii rfl
  · obtain ⟨⟨v', w', rest'⟩, hhex, h⟩ := Option.map_eq_some_iff.mp h
    cases h
    exact (takes_unicodeEscape hhex).cons_ascii rfl
  · cases h
    exact ((Takes.nil _).cons_ascii rfl).cons_ascii rfl
  · next c cs _ _ _ =>
    have hwhole : Takes (c :: cs) c.utf8Size cs := (Takes.nil cs).cons c
    rcases ite_eq_iff.mp h with ⟨-, h⟩ | ⟨-, h⟩
    · cases h
      exact hwhole
    -- Six letters stand for control characters.
    iterate 6
      rcases ite_eq_iff.mp h with ⟨hc, h⟩ | ⟨-, h⟩
      · cases h
        exact (Takes.nil _).cons_ascii (by rw [hc]; rfl)
    rcases ite_eq_iff.mp h with ⟨hc, h⟩ | ⟨-, h⟩
    · -- A zero with no digit behind it.
      rw [Bool.and_eq_true, decide_eq_true_iff] at hc
      cases h
      exact (Takes.nil _).cons_ascii (by rw [hc.1]; rfl)
    rcases ite_eq_iff.mp h with ⟨hdigit, h⟩ | ⟨-, h⟩
    · have hc := utf8Size_of_isDigit hdigit
      rcases ite_eq_iff.mp h with ⟨-, h⟩ | ⟨-, h⟩
      · cases h
      rcases ite_eq_iff.mp h with ⟨-, h⟩ | ⟨-, h⟩
      · cases h
        exact (Takes.nil _).cons_ascii hc
      · cases h
        exact (takes_octalDigits _ _ cs).cons_ascii hc
    · cases h
      exact hwhole

/-! ## Strings and templates -/

/-- A string takes its characters and the quote behind them. -/
theorem takes_stringBody {quote : Char} {fuel cs rest : List Char} {w : Nat} {points : List Nat}
    (h : stringBody quote fuel cs = some (points, w, rest)) :
    ∃ v, w = v + 1 ∧ Takes cs v (quote :: rest) := by
  induction fuel generalizing cs w points with
  | nil => cases h
  | cons _ fuel ih =>
    cases cs with
    | nil => cases h
    | cons c cs =>
      rw [stringBody] at h
      split at h
      · next hc =>
        cases h
        exact ⟨0, rfl, hc ▸ .nil _⟩
      split at h
      · cases h
      split at h
      · next hc =>
        simp only [Option.bind_eq_bind, Option.bind_eq_some_iff] at h
        obtain ⟨⟨ps, w', rest'⟩, hescape, ⟨more, w'', rest''⟩, hmore, h⟩ := h
        obtain ⟨⟨ps', w₁, rest₁⟩, htaken, heq⟩ := Option.map_eq_some_iff.mp hescape
        cases heq
        cases h
        obtain ⟨v, rfl, hv⟩ := ih hmore
        exact ⟨_, (Nat.add_assoc ..).symm,
          ((takes_escape htaken).cons_ascii (by rw [hc]; rfl)).trans hv⟩
      · simp only [Option.bind_eq_bind, Option.bind_eq_some_iff] at h
        obtain ⟨⟨ps, w', rest'⟩, hself, ⟨more, w'', rest''⟩, hmore, h⟩ := h
        cases hself
        cases h
        obtain ⟨v, rfl, hv⟩ := ih hmore
        exact ⟨_, (Nat.add_assoc ..).symm, ((Takes.nil cs).cons c).trans hv⟩

theorem takes_string {quote : Char} {cs rest : List Char} {w : Nat} {points : List Nat}
    (h : string quote cs = some (points, w, rest)) :
    ∃ v, w = v + 1 ∧ Takes cs v (quote :: rest) := by
  obtain ⟨⟨ps, w', rest'⟩, hbody, h⟩ := Option.map_eq_some_iff.mp h
  cases h
  exact takes_stringBody hbody

/-- A chunk takes its text and its delimiter, which is one character or two. -/
theorem takes_chunkText {cs text rest : List Char} {w : Nat} {last : Bool}
    (h : chunkText cs = some (text, w, last, rest)) :
    ∃ delimiter, Takes cs w delimiter ∧ Takes delimiter (if last then 1 else 2) rest := by
  induction cs using chunkText.induct generalizing text w with
  | case1 => cases h
  | case2 =>
    cases h
    exact ⟨_, .nil _, (Takes.nil _).cons_ascii rfl⟩
  | case3 =>
    cases h
    exact ⟨_, .nil _, ((Takes.nil _).cons_ascii rfl).cons_ascii rfl⟩
  | case4 c cs ih =>
    rw [chunkText] at h
    simp only [Option.bind_eq_bind, Option.bind_eq_some_iff] at h
    obtain ⟨⟨text', w', last', rest'⟩, hmore, h⟩ := h
    cases h
    obtain ⟨delimiter, htext, hend⟩ := ih hmore
    exact ⟨delimiter, ((htext.cons c).cons '\\').congr (by
      rw [utf8Size_backslash]
      dsimp only
      omega), hend⟩
  | case5 c cs h₁ h₂ h₃ ih =>
    rw [chunkText] at h
    · simp only [Option.bind_eq_bind, Option.bind_eq_some_iff] at h
      obtain ⟨⟨text', w', last', rest'⟩, hmore, h⟩ := h
      cases h
      obtain ⟨delimiter, htext, hend⟩ := ih hmore
      exact ⟨delimiter, (htext.cons c).congr (Nat.add_comm ..), hend⟩
    · exact h₁
    · exact h₂
    · exact h₃

/-- The span of a chunk is that of its text, in front of its delimiter. -/
theorem takes_chunk {pos w : Nat} {cs rest : List Char} {ch : TemplateChunk} {last : Bool}
    (h : chunk pos cs = some (ch, w, last, rest)) :
    ∃ v u delimiter, ch.span = ⟨pos, pos + v⟩ ∧ w = v + u ∧ Takes cs v delimiter ∧
      Takes delimiter u rest := by
  simp only [chunk, Option.bind_eq_bind, Option.bind_eq_some_iff] at h
  obtain ⟨⟨text, w', last', rest'⟩, htext, h⟩ := h
  cases h
  obtain ⟨delimiter, htaken, hend⟩ := takes_chunkText htext
  exact ⟨w', _, delimiter, rfl, rfl, htaken, hend⟩

/-! ## Regular expressions -/

theorem takes_regexBody {inClass : Bool} {cs text rest : List Char} {w : Nat}
    (h : regexBody inClass cs = some (text, w, rest)) : Takes cs w rest := by
  induction inClass, cs using regexBody.induct generalizing text w with
  | case1 => cases h
  | case2 inClass c cs hend =>
    rw [regexBody, if_pos hend] at h
    cases h
  | case3 inClass c cs hend ih =>
    rw [regexBody, if_neg hend] at h
    simp only [Option.bind_eq_bind, Option.bind_eq_some_iff] at h
    obtain ⟨⟨text', w', rest'⟩, hmore, h⟩ := h
    cases h
    exact (((ih hmore).cons c).cons '\\').congr (by rw [utf8Size_backslash]; dsimp only; omega)
  | case4 inClass c cs hpair hend =>
    rw [regexBody, if_pos hend] at h
    · cases h
    · exact hpair
  | case5 inClass c cs hpair hend hslash =>
    rw [regexBody, if_neg hend, if_pos hslash] at h
    · cases h
      rw [Bool.and_eq_true, decide_eq_true_iff] at hslash
      exact (Takes.nil _).cons_ascii (by rw [hslash.1]; rfl)
    · exact hpair
  | case6 inClass c cs hpair hend hslash ih =>
    rw [regexBody, if_neg hend, if_neg hslash] at h
    · simp only [Option.bind_eq_bind, Option.bind_eq_some_iff] at h
      obtain ⟨⟨text', w', rest'⟩, hmore, h⟩ := h
      cases h
      exact ((ih hmore).cons c).congr (Nat.add_comm ..)
    · exact hpair

theorem width_of_ascii {cs : List Char} (h : ∀ c ∈ cs, c.utf8Size = 1) :
    width cs = cs.length := by
  induction cs with
  | nil => rfl
  | cons c cs ih =>
    rw [width_cons, h c List.mem_cons_self, ih fun d hd ↦ h d (List.mem_cons_of_mem c hd),
      List.length_cons, Nat.add_comm]

theorem takes_span (p : Char → Bool) (cs : List Char) :
    Takes cs (width (cs.span p).1) (cs.span p).2 :=
  ⟨(cs.span p).1, by rw [List.span_eq_takeWhile_dropWhile, List.takeWhile_append_dropWhile], rfl⟩

theorem utf8Size_of_areFlags {flags : List Char} (h : areFlags flags = true) :
    ∀ c ∈ flags, c.utf8Size = 1 := by
  induction flags with
  | nil => nofun
  | cons c cs ih =>
    rw [areFlags, Bool.and_eq_true, Bool.and_eq_true] at h
    have hflags : ("dgimsuvy".toList.all fun d ↦ d.utf8Size == 1) = true := by decide
    have hflag := List.all_eq_true.mp hflags c (List.contains_iff_mem.mp h.1.1)
    exact List.forall_mem_cons.mpr ⟨eq_of_beq hflag, ih h.2⟩

theorem takes_regex {cs rest : List Char} {w : Nat} {x : String × String}
    (h : regex cs = some (x, w, rest)) : Takes cs w rest := by
  simp only [regex, Option.bind_eq_bind, Option.bind_eq_some_iff] at h
  obtain ⟨⟨text, w', rest'⟩, hbody, h⟩ := h
  split at h
  · next hflags =>
    cases h
    rw [Bool.and_eq_true] at hflags
    refine (takes_regexBody hbody).trans ((takes_span isNamePart rest').congr ?_)
    exact width_of_ascii (utf8Size_of_areFlags hflags.1)
  · cases h

/-! ## Names -/

/-- A text begins with the rest of a name, which is read character by character. -/
inductive ReadsName : Bool → List Char → List Char → Bool → Nat → List Char → Prop where
  | nil (cs : List Char) : ReadsName false cs [] false 0 cs
  | escape {isFirst escaped : Bool} {cs rest n rest' : List Char} {v w w' : Nat}
      (hunicode : unicodeEscape cs = some (v, w, rest))
      (hpart : (if isFirst then isNameStart (Char.ofNat v) else isNamePart (Char.ofNat v)) = true)
      (hmore : ReadsName false rest n escaped w' rest') :
    ReadsName isFirst ('\\' :: 'u' :: cs) (Char.ofNat v :: n) true (w + 2 + w') rest'
  | cons {isFirst escaped : Bool} {c : Char} {cs n rest : List Char} {w : Nat}
      (hpart : (if isFirst then isNameStart c else isNamePart c) = true)
      (hmore : ReadsName false cs n escaped w rest) :
    ReadsName isFirst (c :: cs) (c :: n) escaped (c.utf8Size + w) rest

theorem readsName_nil {isFirst escaped : Bool} {cs n rest : List Char} {w : Nat}
    (h : (if isFirst then none else some (([], false), 0, cs)) = some ((n, escaped), w, rest)) :
    ReadsName isFirst cs n escaped w rest := by
  cases isFirst with
  | true => cases h
  | false =>
    cases h
    exact .nil _

theorem readsName_of_nameBody {fuel cs rest n : List Char} {isFirst escaped : Bool} {w : Nat}
    (h : nameBody fuel isFirst cs = some ((n, escaped), w, rest)) :
    ReadsName isFirst cs n escaped w rest := by
  induction fuel generalizing isFirst cs n escaped w with
  | nil =>
    rw [nameBody] at h
    exact readsName_nil h
  | cons _ fuel ih =>
    rw [nameBody.eq_def] at h
    dsimp only at h
    split at h
    · simp only [Option.bind_eq_bind, Option.bind_eq_some_iff] at h
      obtain ⟨⟨v, w', rest'⟩, hunicode, h⟩ := h
      rcases ite_eq_iff.mp h with ⟨hpart, h⟩ | ⟨-, h⟩
      · simp only [Option.bind_eq_some_iff] at h
        obtain ⟨⟨⟨n', escaped'⟩, w'', rest''⟩, hmore, h⟩ := h
        cases h
        exact .escape hunicode hpart (ih hmore)
      · cases h
    · cases h
    · rcases ite_eq_iff.mp h with ⟨hpart, h⟩ | ⟨-, h⟩
      · simp only [Option.bind_eq_bind, Option.bind_eq_some_iff] at h
        obtain ⟨⟨⟨n', escaped'⟩, w', rest'⟩, hmore, h⟩ := h
        cases h
        exact .cons hpart (ih hmore)
      · exact readsName_nil h
    · exact readsName_nil h

theorem ReadsName.takes {isFirst escaped : Bool} {cs n rest : List Char} {w : Nat}
    (h : ReadsName isFirst cs n escaped w rest) : Takes cs w rest := by
  induction h with
  | nil cs => exact .nil cs
  | escape hunicode _ _ ih =>
    have htwo := (((takes_unicodeEscape hunicode).trans ih).cons 'u').cons '\\'
    exact htwo.congr (by
      rw [utf8Size_backslash, show 'u'.utf8Size = 1 from rfl]
      omega)
  | cons _ _ ih => exact ih.cons _

theorem isNamePart_of_isNameStart {c : Char} (h : isNameStart c = true) : isNamePart c = true := by
  unfold isNameStart at h
  unfold isNamePart isAsciiNamePart
  split at h
  · rw [if_pos ‹_›, h, Bool.true_or]
  · rw [if_neg ‹_›, h, Bool.true_or, Bool.true_or, Bool.true_or]

theorem isNamePart_of_ite {isFirst : Bool} {c : Char}
    (h : (if isFirst then isNameStart c else isNamePart c) = true) : isNamePart c = true := by
  cases isFirst with
  | false => exact h
  | true => exact isNamePart_of_isNameStart h

/-- A text of characters of names, of which there is at least one. -/
def IsWord (cs : List Char) : Prop := cs ≠ [] ∧ ∀ c ∈ cs, isNamePart c = true

instance (cs : List Char) : Decidable (IsWord cs) := inferInstanceAs (Decidable (_ ∧ _))

theorem ReadsName.ne_nil {cs rest n : List Char} {escaped : Bool} {w : Nat}
    (h : ReadsName true cs n escaped w rest) : n ≠ [] := by
  cases h <;> exact List.cons_ne_nil _ _

/-- A name consists of characters of names, also where they are written as escapes. -/
theorem ReadsName.isNamePart {cs rest n : List Char} {isFirst escaped : Bool} {w : Nat}
    (h : ReadsName isFirst cs n escaped w rest) : ∀ c ∈ n, isNamePart c = true := by
  induction h with
  | nil => exact List.forall_mem_nil _
  | escape _ hpart _ ih => exact List.forall_mem_cons.mpr ⟨isNamePart_of_ite hpart, ih⟩
  | cons hpart _ ih => exact List.forall_mem_cons.mpr ⟨isNamePart_of_ite hpart, ih⟩

theorem isWord_of_name {cs rest : List Char} {w : Nat} {x : String × Bool}
    (h : name cs = some (x, w, rest)) : IsWord x.1.toList := by
  obtain ⟨⟨⟨n, escaped⟩, w, rest⟩, hbody, h⟩ := Option.map_eq_some_iff.mp h
  cases h
  rw [String.toList_ofList]
  have hread := readsName_of_nameBody hbody
  exact ⟨hread.ne_nil, hread.isNamePart⟩

/-- A name without escapes is written as it is. -/
theorem ReadsName.eq_append {cs rest n : List Char} {isFirst escaped : Bool} {w : Nat}
    (h : ReadsName isFirst cs n escaped w rest) (hplain : escaped = false) : cs = n ++ rest := by
  induction h with
  | nil => rfl
  | escape => cases hplain
  | cons _ _ ih => exact congrArg _ (ih hplain)

theorem eq_append_of_name {cs rest : List Char} {n : String} {isEscaped : Bool} {w : Nat}
    (h : name cs = some ((n, isEscaped), w, rest)) (hplain : isEscaped = false) :
    cs = n.toList ++ rest := by
  subst hplain
  obtain ⟨⟨⟨n', escaped⟩, w', rest'⟩, hbody, h⟩ := Option.map_eq_some_iff.mp h
  cases h
  rw [String.toList_ofList]
  exact (readsName_of_nameBody hbody).eq_append rfl

theorem takes_name {cs rest : List Char} {w : Nat} {x : String × Bool}
    (h : name cs = some (x, w, rest)) : Takes cs w rest := by
  obtain ⟨⟨⟨n, escaped⟩, w', rest'⟩, hbody, h⟩ := Option.map_eq_some_iff.mp h
  cases h
  exact (readsName_of_nameBody hbody).takes

/-- A name has a character. -/
theorem pos_of_name {cs rest : List Char} {w : Nat} {x : String × Bool}
    (h : name cs = some (x, w, rest)) : 0 < w := by
  obtain ⟨⟨⟨n, escaped⟩, w', rest'⟩, hbody, heq⟩ := Option.map_eq_some_iff.mp h
  cases heq
  clear h
  cases cs with
  | nil => cases hbody
  | cons c cs =>
    rw [nameBody.eq_def] at hbody
    dsimp only at hbody
    split at hbody
    · simp only [Option.bind_eq_bind, Option.bind_eq_some_iff] at hbody
      obtain ⟨_, _, h⟩ := hbody
      rcases ite_eq_iff.mp h with ⟨-, h⟩ | ⟨-, h⟩
      · simp only [Option.bind_eq_some_iff] at h
        obtain ⟨_, _, h⟩ := h
        cases h
        omega
      · cases h
    · cases hbody
    · next c' _ _ _ _ =>
      rcases ite_eq_iff.mp hbody with ⟨-, h⟩ | ⟨-, h⟩
      · simp only [Option.bind_eq_bind, Option.bind_eq_some_iff] at h
        obtain ⟨_, _, h⟩ := h
        cases h
        exact Nat.add_pos_left c'.utf8Size_pos _
      · cases h
    · cases hbody

/-! ## Numbers -/

/-- Whether a token is a number. -/
def isNumeric : TokenKind → Bool
  | .number _ | .bigint _ => true
  | _ => false

theorem takes_digits {base w : Nat} (hbase : base ≤ 16) {afterDigit : Bool} {cs rest : List Char}
    {ds : List Nat} (h : digits base afterDigit cs = some (ds, w, rest)) : Takes cs w rest := by
  induction cs generalizing afterDigit ds w with
  | nil =>
    rw [digits] at h
    split at h
    · cases h
      exact .nil _
    · cases h
  | cons c cs ih =>
    rw [digits] at h
    split at h
    · next d hd =>
      simp only [Option.bind_eq_bind, Option.bind_eq_some_iff] at h
      obtain ⟨⟨ds', w', rest'⟩, hmore, h⟩ := h
      cases h
      exact (ih hmore).cons_ascii (utf8Size_of_digitValue hbase hd)
    · rcases ite_eq_iff.mp h with ⟨-, h⟩ | ⟨-, h⟩
      · cases h
      rcases ite_eq_iff.mp h with ⟨hc, h⟩ | ⟨-, h⟩
      · obtain ⟨⟨ds', w', rest'⟩, hmore, h⟩ := Option.map_eq_some_iff.mp h
        cases h
        exact (ih hmore).cons_ascii (by rw [hc]; rfl)
      · cases h
        exact .nil _

theorem eq_of_closed {kind kind' : TokenKind} {w w' : Nat} {cs rest : List Char}
    (h : closed kind w cs = some (kind', w', rest)) : kind' = kind ∧ w' = w ∧ rest = cs := by
  unfold closed at h
  split at h
  · rcases ite_eq_iff.mp h with ⟨-, h⟩ | ⟨-, h⟩
    · cases h
    · cases h
      exact ⟨rfl, rfl, rfl⟩
  · cases h
    exact ⟨rfl, rfl, rfl⟩

theorem pos_of_digits {base w : Nat} {cs rest : List Char} {ds : List Nat}
    (h : digits base false cs = some (ds, w, rest)) : 0 < w := by
  cases cs with
  | nil => cases h
  | cons c cs =>
    rw [digits] at h
    split at h
    · simp only [Option.bind_eq_bind, Option.bind_eq_some_iff] at h
      obtain ⟨_, _, h⟩ := h
      cases h
      exact Nat.succ_pos _
    · cases h

theorem takes_basedInteger {base w : Nat} (hbase : base ≤ 16) {cs rest : List Char}
    {kind : TokenKind} (h : basedInteger base cs = some (kind, w, rest)) :
    ∃ w', w = w' + 2 ∧ Takes cs w' rest ∧ isNumeric kind = true := by
  simp only [basedInteger, Option.bind_eq_bind, Option.bind_eq_some_iff] at h
  obtain ⟨⟨ds, w', rest'⟩, hdigits, h⟩ := h
  have htakes := takes_digits hbase hdigits
  dsimp only at h
  split at h
  · obtain ⟨rfl, rfl, rfl⟩ := eq_of_closed h
    exact ⟨w' + 1, rfl, htakes.trans ((Takes.nil _).cons_ascii rfl), rfl⟩
  · obtain ⟨rfl, rfl, rfl⟩ := eq_of_closed h
    exact ⟨w', rfl, htakes, rfl⟩

theorem takes_fractionDigits {cs rest : List Char} {w : Nat} {ds : List Nat}
    (h : fractionDigits cs = some (ds, w, rest)) : Takes cs w rest := by
  rcases ite_eq_iff.mp h with ⟨-, h⟩ | ⟨-, h⟩
  · exact takes_digits (by decide) h
  · cases h
    exact .nil _

theorem takes_exponentPart {cs rest : List Char} {w : Nat} {power : Option Int}
    (h : exponentPart cs = some (power, w, rest)) : Takes cs w rest := by
  unfold exponentPart at h
  split at h
  · next c cs =>
    rcases ite_eq_iff.mp h with ⟨hc, h⟩ | ⟨-, h⟩
    · have hc : c.utf8Size = 1 := by
        rw [Bool.or_eq_true, decide_eq_true_iff, decide_eq_true_iff] at hc
        rcases hc with rfl | rfl <;> rfl
      split at h
      · obtain ⟨⟨ds, w', rest'⟩, hdigits, h⟩ := Option.map_eq_some_iff.mp h
        cases h
        exact ((takes_digits (by decide) hdigits).cons_ascii rfl).cons_ascii hc
      · obtain ⟨⟨ds, w', rest'⟩, hdigits, h⟩ := Option.map_eq_some_iff.mp h
        cases h
        exact ((takes_digits (by decide) hdigits).cons_ascii rfl).cons_ascii hc
      · obtain ⟨⟨ds, w', rest'⟩, hdigits, h⟩ := Option.map_eq_some_iff.mp h
        cases h
        exact (takes_digits (by decide) hdigits).cons_ascii hc
    · cases h
      exact .nil _
  · cases h
    exact .nil _

/-- Behind the whole part of a number come at least its point, if there is one. -/
theorem takes_decimalTail {whole : List Nat} {w w' : Nat} {cs rest : List Char}
    {kind : TokenKind} (h : decimalTail whole w cs = some (kind, w', rest)) :
    ∃ v, w' = w + v ∧ Takes cs v rest ∧ (cs.head? = some '.' → 0 < v) ∧ isNumeric kind = true := by
  unfold decimalTail at h
  split at h
  · simp only [Option.bind_eq_bind, Option.bind_eq_some_iff] at h
    obtain ⟨⟨fraction, w₁, rest₁⟩, hfraction, ⟨power, w₂, rest₂⟩, hpower, h⟩ := h
    obtain ⟨rfl, rfl, rfl⟩ := eq_of_closed h
    obtain ⟨⟨ds, w₃, rest₃⟩, hdigits, heq⟩ := Option.map_eq_some_iff.mp hfraction
    cases heq
    have hpoint := (takes_fractionDigits hdigits).cons_ascii (c := '.') rfl
    exact ⟨_, Nat.add_assoc .., hpoint.trans (takes_exponentPart hpower),
      fun _ ↦ by dsimp only; omega, rfl⟩
  · next hpoint =>
    simp only [Option.bind_eq_bind, Option.bind_eq_some_iff] at h
    obtain ⟨⟨fraction, w₁, rest₁⟩, hfraction, ⟨power, w₂, rest₂⟩, hpower, h⟩ := h
    obtain ⟨rfl, rfl, rfl⟩ := eq_of_closed h
    cases hfraction
    refine ⟨_, Nat.add_assoc .., (Takes.nil _).trans (takes_exponentPart hpower), fun hhead ↦ ?_,
      rfl⟩
    cases cs with
    | nil => cases hhead
    | cons c cs =>
      cases hhead
      exact absurd rfl (hpoint cs)

theorem takes_number {cs rest : List Char} {w : Nat} {kind : TokenKind}
    (h : number cs = some (kind, w, rest)) : Takes cs w rest ∧ 0 < w ∧ isNumeric kind = true := by
  unfold number at h
  split at h
  · next c cs =>
    -- The digits of a base stand behind the zero and the letter that names the base.
    have hbased : ∀ {base : Nat}, base ≤ 16 → c.utf8Size = 1 →
        basedInteger base cs = some (kind, w, rest) →
          Takes ('0' :: c :: cs) w rest ∧ 0 < w ∧ isNumeric kind = true := by
      intro base hbase hc h
      obtain ⟨w', rfl, htakes, hkind⟩ := takes_basedInteger hbase h
      exact ⟨(htakes.cons_ascii hc).cons_ascii rfl, Nat.succ_pos _, hkind⟩
    have hletter : ∀ {a b : Char}, a.utf8Size = 1 → b.utf8Size = 1 →
        (c = a || c = b) = true → c.utf8Size = 1 := by
      intro a b ha hb hc
      rw [Bool.or_eq_true, decide_eq_true_iff, decide_eq_true_iff] at hc
      rcases hc with rfl | rfl
      · exact ha
      · exact hb
    rcases ite_eq_iff.mp h with ⟨hc, h⟩ | ⟨-, h⟩
    · exact hbased (by decide) (hletter rfl rfl hc) h
    rcases ite_eq_iff.mp h with ⟨hc, h⟩ | ⟨-, h⟩
    · exact hbased (by decide) (hletter rfl rfl hc) h
    rcases ite_eq_iff.mp h with ⟨hc, h⟩ | ⟨-, h⟩
    · exact hbased (by decide) (hletter rfl rfl hc) h
    rcases ite_eq_iff.mp h with ⟨hc, h⟩ | ⟨-, h⟩
    · obtain ⟨rfl, rfl, rfl⟩ := eq_of_closed h
      exact ⟨((Takes.nil _).cons_ascii (by rw [hc]; rfl)).cons_ascii rfl, Nat.succ_pos _, rfl⟩
    rcases ite_eq_iff.mp h with ⟨hdigit, h⟩ | ⟨-, h⟩
    · -- Digits behind a zero are octal ones, unless an 8 or a 9 is among them.
      have hspan := takes_span Char.isDigit (c :: cs)
      have hascii : ∀ d ∈ ((c :: cs).span Char.isDigit).1, d.utf8Size = 1 := by
        intro d hd
        rw [List.span_eq_takeWhile_dropWhile] at hd
        exact utf8Size_of_isDigit (List.all_eq_true.mp List.all_takeWhile d hd)
      rw [width_of_ascii hascii] at hspan
      have hzero := hspan.cons_ascii (c := '0') rfl
      dsimp only at h
      rcases ite_eq_iff.mp h with ⟨-, h⟩ | ⟨-, h⟩
      · obtain ⟨rfl, rfl, rfl⟩ := eq_of_closed h
        exact ⟨hzero, Nat.succ_pos _, rfl⟩
      · obtain ⟨v, rfl, htakes, -, hkind⟩ := takes_decimalTail h
        exact ⟨hzero.trans htakes, by omega, hkind⟩
    · obtain ⟨v, rfl, htakes, -, hkind⟩ := takes_decimalTail h
      exact ⟨(htakes.cons_ascii rfl).congr (Nat.add_comm ..), by omega, hkind⟩
  · simp only [Option.bind_eq_bind, Option.bind_eq_some_iff] at h
    obtain ⟨⟨ds, w', rest'⟩, hdigits, h⟩ := h
    have htakes := takes_digits (by decide) hdigits
    have hpos := pos_of_digits hdigits
    dsimp only at h
    split at h
    · obtain ⟨rfl, rfl, rfl⟩ := eq_of_closed h
      exact ⟨htakes.trans ((Takes.nil _).cons_ascii rfl), by omega, rfl⟩
    · obtain ⟨v, rfl, htail, -, hkind⟩ := takes_decimalTail h
      exact ⟨htakes.trans htail, by omega, hkind⟩

end Downlevel.Script.Literal
