import Downlevel.Text.Quoted
import Mathlib.Data.List.Basic
import Mathlib.Data.List.Induction

/-!
# Reading quoted strings

The quoted form of a string shows where it ends: what follows the closing quote is never taken for a
part of it. A reader that undoes the escapes and stops at the first quote that is not escaped finds
the string and what stands behind it, whatever that is. So a text that starts with a quoted string
determines both.
-/

namespace Downlevel.Text.Quoted

/-! ## The reader -/

/-- The value of a lower-case hexadecimal digit. -/
def hexValue (c : Char) : Nat := if c.isDigit then c.toNat - 48 else c.toNat - 87

/-- What a character behind a backslash stands for. -/
def unescape : Char → Char
  | 'n' => '\n'
  | 't' => '\t'
  | 'r' => '\r'
  | 'b' => '\x08'
  | 'f' => '\x0c'
  | c => c

/-- The text whose quoted form goes up to the next bare quote, and what follows that quote. -/
def read? : List Char → Option (List Char × List Char)
  | '"' :: cs => some ([], cs)
  | '\\' :: 'u' :: _ :: _ :: a :: b :: cs =>
    (read? cs).map fun (text, rest) ↦ (Char.ofNat (hexValue a * 16 + hexValue b) :: text, rest)
  | '\\' :: c :: cs => (read? cs).map fun (text, rest) ↦ (unescape c :: text, rest)
  | c :: cs => (read? cs).map fun (text, rest) ↦ (c :: text, rest)
  | [] => none

theorem hexValue_hexDigit {n : Nat} (h : n < 16) : hexValue (hexDigit n) = n := by
  have hall : ∀ n < 16, hexValue (hexDigit n) = n := by decide
  exact hall n h

/-- The reader goes over the escaped form of one character. -/
theorem read?_escape_append (c : Char) (cs : List Char) :
    read? (escape c ++ cs) = (read? cs).map fun (text, rest) ↦ (c :: text, rest) := by
  unfold escape
  split_ifs with hquote hslash hfeed htab hreturn hback hform hcontrol
  · rw [hquote]; rfl
  · rw [hslash]; rfl
  · rw [hfeed]; rfl
  · rw [htab]; rfl
  · rw [hreturn]; rfl
  · rw [hback]; rfl
  · rw [hform]; rfl
  · -- The two digits are those of the code of the character.
    have hcode : hexValue (hexDigit (c.toNat / 16)) * 16 + hexValue (hexDigit (c.toNat % 16))
        = c.toNat := by
      rw [hexValue_hexDigit (by omega), hexValue_hexDigit (by omega)]
      omega
    simp only [List.cons_append, List.nil_append, read?, hcode, Char.ofNat_toNat]
  · rw [List.singleton_append, read?]
    · exact hquote
    · rintro _ _ _ _ _ rfl
      exact absurd rfl hslash
    · rintro _ _ rfl
      exact absurd rfl hslash

/-! ## What a quoted text determines -/

/-- The reader finds a text from its quoted form, and leaves what follows. -/
theorem read?_append (s rest : List Char) :
    read? (s.flatMap escape ++ '"' :: rest) = some (s, rest) := by
  induction s with
  | nil => rfl
  | cons c cs ih =>
    rw [List.flatMap_cons, List.append_assoc, read?_escape_append, ih]
    rfl

/-- A quoted text at the start of a text determines both itself and what stands behind it. -/
theorem encode_append_inj {s t x y : List Char} (h : encode s ++ x = encode t ++ y) :
    s = t ∧ x = y := by
  have hread : ∀ s x : List Char, read? ((encode s ++ x).tail) = some (s, x) := by
    intro s x
    rw [encode, List.cons_append, List.cons_append, List.tail_cons, List.append_assoc]
    exact read?_append s x
  have hpairs := (hread s x).symm.trans ((congrArg (fun cs ↦ read? cs.tail) h).trans (hread t y))
  rw [Option.some_inj, Prod.mk.injEq] at hpairs
  exact hpairs

/-! ## The characters of a quoted text -/

/-- A character is written behind a backslash or stands for itself. -/
theorem escape_cases (c : Char) : (∃ escaped, escape c = '\\' :: escaped) ∨
    escape c = [c] ∧ c ≠ '"' ∧ c ≠ '\\' ∧ 0x20 ≤ c.toNat := by
  unfold escape
  split_ifs with hquote hslash _ _ _ _ _ hcontrol
  case neg => exact .inr ⟨rfl, hquote, hslash, Nat.le_of_not_lt hcontrol⟩
  all_goals exact .inl ⟨_, rfl⟩

/-- The characters that are written in escapes, besides quotes and digits. -/
def escapeLetters : List Char := ['\\', 'n', 't', 'r', 'b', 'f', 'u', '0']

/-- The written form of a character has the character itself, unless it is a control character,
letters of escapes and hexadecimal digits. -/
theorem cases_of_mem_escape {c d : Char} (h : d ∈ escape c) :
    (d = c ∧ 0x20 ≤ c.toNat) ∨ d ∈ escapeLetters ∨ ∃ n < 16, d = hexDigit n := by
  have hshort : ∀ e ∈ escapeLetters, d ∈ ['\\', e] → d ∈ escapeLetters := by
    intro e he hd
    obtain rfl | rfl : d = '\\' ∨ d = e := by simpa using hd
    · decide
    · exact he
  unfold escape at h
  split_ifs at h with hquote _ _ _ _ _ _ hcontrol
  · obtain rfl | rfl : d = '\\' ∨ d = '"' := by simpa using h
    · exact .inr (.inl (by decide))
    · exact .inl ⟨hquote.symm, by rw [hquote]; decide⟩
  · exact .inr (.inl (hshort _ (by decide) h))
  · exact .inr (.inl (hshort _ (by decide) h))
  · exact .inr (.inl (hshort _ (by decide) h))
  · exact .inr (.inl (hshort _ (by decide) h))
  · exact .inr (.inl (hshort _ (by decide) h))
  · exact .inr (.inl (hshort _ (by decide) h))
  · obtain rfl | rfl | rfl | hdigit : d = '\\' ∨ d = 'u' ∨ d = '0' ∨
        d = hexDigit (c.toNat / 16) ∨ d = hexDigit (c.toNat % 16) := by simpa using h
    · exact .inr (.inl (by decide))
    · exact .inr (.inl (by decide))
    · exact .inr (.inl (by decide))
    · exact .inr (.inr (hdigit.elim (fun hd ↦ ⟨_, by omega, hd⟩) fun hd ↦ ⟨_, by omega, hd⟩))
  · exact .inl ⟨List.mem_singleton.1 h, by omega⟩

theorem le_toNat_of_mem_escape {c d : Char} (h : d ∈ escape c) : 0x20 ≤ d.toNat := by
  have hletter : escapeLetters.all (fun d ↦ 0x20 ≤ d.toNat) = true := by decide
  have hdigit : ∀ n < 16, 0x20 ≤ (hexDigit n).toNat := by decide
  obtain ⟨rfl, hc⟩ | hd | ⟨n, hn, rfl⟩ := cases_of_mem_escape h
  · exact hc
  · exact of_decide_eq_true (List.all_eq_true.1 hletter d hd)
  · exact hdigit n hn

/-- No control character stands in a quoted text. -/
theorem le_toNat_of_mem_encode {text : List Char} {d : Char} (h : d ∈ encode text) :
    0x20 ≤ d.toNat := by
  simp only [encode, List.cons_append, List.mem_cons, List.mem_append, List.mem_flatMap,
    List.not_mem_nil, or_false] at h
  rcases h with rfl | ⟨c, -, h⟩ | rfl
  · decide
  · exact le_toNat_of_mem_escape h
  · decide

/-- The number of backslashes at the end of a text. -/
def trailingBackslashes (cs : List Char) : Nat := (cs.reverse.takeWhile (· == '\\')).length

theorem trailingBackslashes_concat_of_ne (cs : List Char) {c : Char} (h : c ≠ '\\') :
    trailingBackslashes (cs ++ [c]) = 0 := by
  simp [trailingBackslashes, h]

theorem trailingBackslashes_concat (cs : List Char) :
    trailingBackslashes (cs ++ ['\\']) = trailingBackslashes cs + 1 := by
  simp [trailingBackslashes]

/-- An escaped form ends in two backslashes or in another character. -/
theorem trailingBackslashes_append_escape (cs : List Char) (c : Char) :
    trailingBackslashes (cs ++ escape c) = trailingBackslashes cs + 2 ∨
      trailingBackslashes (cs ++ escape c) = 0 := by
  have hdigit : ∀ n < 16, hexDigit n ≠ '\\' := by decide
  by_cases hslash : c = '\\'
  · left
    have hescape : escape c = ['\\'] ++ ['\\'] := by rw [hslash]; rfl
    rw [hescape, ← List.append_assoc, trailingBackslashes_concat, trailingBackslashes_concat]
  · right
    have hlast : ∃ init d, escape c = init ++ [d] ∧ d ≠ '\\' := by
      unfold escape
      split_ifs with hcontrol
      all_goals first
        | exact absurd ‹_› hslash
        | exact ⟨[], c, rfl, hslash⟩
        | exact ⟨['\\'], _, rfl, by decide⟩
        | exact ⟨['\\', 'u', '0', '0', hexDigit (c.toNat / 16)], _, rfl, hdigit _ (by omega)⟩
    obtain ⟨init, d, hd, hne⟩ := hlast
    rw [hd, ← List.append_assoc]
    exact trailingBackslashes_concat_of_ne _ hne

theorem even_trailingBackslashes (text : List Char) :
    trailingBackslashes (text.flatMap escape) % 2 = 0 := by
  induction text using List.reverseRecOn with
  | nil => rfl
  | append_singleton text c ih =>
    rw [List.flatMap_append, List.flatMap_singleton]
    rcases trailingBackslashes_append_escape (text.flatMap escape) c with h | h <;> omega

theorem quote_notMem_escape {c : Char} (h : c ≠ '"') : '"' ∉ escape c := by
  have hdigit : ∀ n < 16, '"' ≠ hexDigit n := by decide
  intro hmem
  obtain ⟨rfl, -⟩ | hletter | ⟨n, hn, hd⟩ := cases_of_mem_escape hmem
  · exact h rfl
  · exact absurd hletter (by decide)
  · exact hdigit n hn hd

/-- A quote stands in an escaped form only behind a backslash of its own. -/
theorem eq_of_escape_eq {c : Char} {before after : List Char}
    (h : escape c = before ++ '"' :: after) : before = ['\\'] ∧ after = [] := by
  by_cases hc : c = '"'
  · have hescape : escape c = ['\\', '"'] := by rw [hc]; rfl
    rw [hescape] at h
    rcases before with _ | ⟨d, _ | ⟨e, before⟩⟩ <;> simp at h
    exact ⟨by rw [← h.1], h.2⟩
  · refine absurd ?_ (quote_notMem_escape hc)
    rw [h]
    exact List.mem_append_right _ List.mem_cons_self

/-- Every quote within a quoted text is escaped: the backslashes in front of it are odd in number. -/
theorem odd_trailingBackslashes {text before after : List Char}
    (h : text.flatMap escape = before ++ '"' :: after) :
    trailingBackslashes before % 2 = 1 := by
  -- The quote belongs to the written form of one character; those before it end in an even number.
  induction text using List.reverseRecOn generalizing after with
  | nil => simp at h
  | append_singleton text c ih =>
    rw [List.flatMap_append, List.flatMap_singleton, List.append_eq_append_iff] at h
    rcases h with ⟨rest, hbefore, hescape⟩ | ⟨rest, htext, hafter⟩
    · obtain ⟨rfl, rfl⟩ := eq_of_escape_eq hescape
      rw [hbefore, trailingBackslashes_concat]
      have := even_trailingBackslashes text
      omega
    · cases rest with
      | nil =>
        rw [List.append_nil] at htext
        rw [List.nil_append] at hafter
        have hescape : escape c = [] ++ '"' :: after := hafter.symm
        cases (eq_of_escape_eq hescape).1
      | cons d rest =>
        rw [List.cons_append] at hafter
        obtain ⟨rfl, -⟩ := List.cons.inj hafter
        exact ih htext

end Downlevel.Text.Quoted
