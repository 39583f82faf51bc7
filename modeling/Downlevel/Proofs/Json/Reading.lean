import Downlevel.Json.Printer
import Downlevel.Json.Reader
import Mathlib.Data.List.Basic
import Mathlib.Data.List.TakeDrop

/-!
# Reading what is printed

Every value is read from its text, whatever stands in its strings. The text of a value that is no
number shows where it ends. That of a number only does if no digit, point or exponent follows, as it
is the case everywhere in the text of a value and at the end of a text.

The fuel of the reader is twice the length of the text and one more. Every step that goes down into
an array or object takes one, and so does every item; both also have a character of their own.
-/

namespace Downlevel.Json

open Text (Quoted.escape Quoted.encode Quoted.quote Quoted.hexDigit)

namespace Reader

/-! ## Strings -/

theorem hexValue_hexDigit {n : Nat} (h : n < 16) : hexValue (Quoted.hexDigit n) = some n := by
  have hall : ∀ n < 16, hexValue (Quoted.hexDigit n) = some n := by decide
  exact hall n h

theorem stringUnits_shortEscape {c : Char} {unit : Nat} (h : shortEscape c = some unit)
    (cs : List Char) :
    stringUnits ('\\' :: c :: cs)
      = (stringUnits cs).map fun (units, rest) ↦ (unit :: units, rest) := by
  rw [stringUnits, h]
  · cases stringUnits cs <;> rfl
  · rintro _ _ _ _ _ rfl
    cases h

/-- The escaped form of a character is read as its code. -/
theorem stringUnits_escape_append (c : Char) (cs : List Char) :
    stringUnits (Quoted.escape c ++ cs)
      = (stringUnits cs).map fun (units, rest) ↦ (c.toNat :: units, rest) := by
  unfold Quoted.escape
  split_ifs with hquote hslash hfeed htab hreturn hback hform hcontrol
  · rw [hquote]; exact stringUnits_shortEscape rfl cs
  · rw [hslash]; exact stringUnits_shortEscape rfl cs
  · rw [hfeed]; exact stringUnits_shortEscape rfl cs
  · rw [htab]; exact stringUnits_shortEscape rfl cs
  · rw [hreturn]; exact stringUnits_shortEscape rfl cs
  · rw [hback]; exact stringUnits_shortEscape rfl cs
  · rw [hform]; exact stringUnits_shortEscape rfl cs
  · -- The two digits are those of the code of the character.
    have hcode : hexValue4 '0' '0' (Quoted.hexDigit (c.toNat / 16))
        (Quoted.hexDigit (c.toNat % 16)) = some c.toNat := by
      have hzero : hexValue '0' = some 0 := rfl
      rw [hexValue4, hzero, hexValue_hexDigit (by omega), hexValue_hexDigit (by omega)]
      dsimp only [bind, Option.bind, pure]
      congr 1
      omega
    simp only [List.cons_append, List.nil_append]
    rw [stringUnits, hcode]
    cases stringUnits cs <;> rfl
  · rw [List.singleton_append, stringUnits, if_neg hcontrol]
    · cases stringUnits cs <;> rfl
    · exact hquote
    · rintro _ _ _ _ _ rfl
      exact absurd rfl hslash
    · rintro _ _ rfl
      exact absurd rfl hslash

theorem stringUnits_append (text rest : List Char) :
    stringUnits (text.flatMap Quoted.escape ++ '"' :: rest)
      = some (text.map Char.toNat, rest) := by
  induction text with
  | nil => rfl
  | cons c cs ih =>
    rw [List.flatMap_cons, List.append_assoc, stringUnits_escape_append, ih]
    rfl

/-- No character is a surrogate, so units are never joined. -/
theorem joinUnits_map_toNat (text : List Char) : joinUnits (text.map Char.toNat) = some text := by
  induction text with
  | nil => rfl
  | cons c cs ih =>
    have hvalid : c.toNat < 0xd800 ∨ 0xe000 ≤ c.toNat := by
      rcases c.valid with h | h
      · exact .inl h
      · exact .inr h.1
    unfold joinUnits
    rw [List.map_cons]
    dsimp only
    rw [if_pos hvalid, ih, Option.map_some, Char.ofNat_toNat]

/-- A string is read from its quoted form behind the opening quote. -/
theorem string_append (s : String) (rest : List Char) :
    string (s.toList.flatMap Quoted.escape ++ '"' :: rest) = some (s, rest) := by
  rw [string, stringUnits_append]
  dsimp only [bind, Option.bind]
  rw [joinUnits_map_toNat]
  dsimp only [pure]
  rw [String.ofList_toList]

/-! ## Digits -/

/-- The end of a number: nothing that would go on with it follows. -/
def EndsNumber (rest : List Char) : Prop :=
  ∀ c ∈ rest.head?, c.isDigit = false ∧ c ≠ '.' ∧ c ≠ 'e' ∧ c ≠ 'E'

theorem span_digits {ds rest : List Char} (hds : ∀ c ∈ ds, c.isDigit = true)
    (hrest : ∀ c ∈ rest.head?, c.isDigit = false) :
    (ds ++ rest).span Char.isDigit = (ds, rest) := by
  rw [List.span_eq_takeWhile_dropWhile, List.takeWhile_append_of_pos hds,
    List.dropWhile_append_of_pos hds]
  cases rest with
  | nil => simp
  | cons c cs =>
    have hc : c.isDigit = false := hrest c rfl
    simp [hc]

theorem isDigit_of_mem_toDigits (n : Nat) : ∀ c ∈ Nat.toDigits 10 n, c.isDigit = true :=
  fun _ hc ↦ Nat.isDigit_of_mem_toDigits (by decide) (by decide) hc

theorem decimalValue_toDigits (n : Nat) : decimalValue (Nat.toDigits 10 n) = n := by
  have hfold : (fun n (d : Char) ↦ n * 10 + (d.toNat - 48))
      = fun n (d : Char) ↦ 10 * n + (d.toNat - '0'.toNat) := by
    funext n d
    rw [Nat.mul_comm]
    rfl
  rw [decimalValue, hfold, ← Nat.ofDigitChars_eq_foldl, Nat.ofDigitChars_ten_toDigits]

theorem head?_toDigits_ne {n : Nat} (h : 0 < n) : (Nat.toDigits 10 n).head? ≠ some '0' := by
  induction n using Nat.strongRecOn with
  | ind n ih =>
    by_cases hn : n < 10
    · have hall : ∀ n < 10, 0 < n → n.digitChar ≠ '0' := by decide
      rw [Nat.toDigits_of_lt_base hn]
      exact fun hhead ↦ hall n hn h (Option.some_inj.mp hhead)
    · rw [Nat.toDigits_of_base_le (by decide) (by omega), List.head?_append_of_ne_nil _
        Nat.toDigits_ne_nil]
      exact ih (n / 10) (by omega) (by omega)

/-- Only zero is written with a zero in front. -/
theorem no_leading_zero (n : Nat) :
    (decide ((Nat.toDigits 10 n).length > 1) && (Nat.toDigits 10 n).head? == some '0') = false := by
  rcases Nat.eq_zero_or_pos n with rfl | hn
  · rfl
  · rw [Bool.and_eq_false_iff, beq_eq_false_iff_ne]
    exact .inr (head?_toDigits_ne hn)

/-! ## Numbers -/

theorem fraction_of_ne {rest : List Char} (h : ∀ c ∈ rest.head?, c ≠ '.') :
    fraction rest = some ([], rest) := by
  unfold fraction
  split
  · next cs => exact absurd rfl (h '.' rfl)
  · rfl

theorem exponent_of_ends {rest : List Char} (h : EndsNumber rest) :
    exponent rest = some (none, rest) := by
  cases rest with
  | nil => rfl
  | cons c cs =>
    obtain ⟨-, -, he, hE⟩ := h c rfl
    unfold exponent
    exact if_neg (not_or.mpr ⟨he, hE⟩)

theorem exponentDigits_toDigits (isNegative : Bool) (n : Nat) {rest : List Char}
    (h : EndsNumber rest) :
    exponentDigits isNegative (Nat.toDigits 10 n ++ rest)
      = some (some (if isNegative then -(n : Int) else n), rest) := by
  rw [exponentDigits, span_digits (isDigit_of_mem_toDigits n) fun c hc ↦ (h c hc).1]
  dsimp only
  rw [if_neg (by simp [Nat.toDigits_ne_nil]), decimalValue_toDigits]

/-- A number without a point is read from its digits and what is left of its exponent. -/
theorem number_toDigits (isNegative : Bool) (m : Nat) {rest rest' : List Char}
    {power : Option Int} (hrest : ∀ c ∈ rest.head?, c.isDigit = false ∧ c ≠ '.')
    (hpower : exponent rest = some (power, rest')) :
    number isNegative (Nat.toDigits 10 m ++ rest)
      = some (.number
          (if power.isNone && !isNegative && decide (m < UInt64.size) then Number.natural m
          else if power.isNone && isNegative && decide (0 < m) && decide (m ≤ UInt64.size / 2) then
            Number.negative m
          else Number.decimal isNegative m (power.getD 0)), rest') := by
  rw [number, span_digits (isDigit_of_mem_toDigits m) fun c hc ↦ (hrest c hc).1]
  dsimp only
  rw [no_leading_zero, if_neg (by simp [Nat.toDigits_ne_nil]),
    fraction_of_ne fun c hc ↦ (hrest c hc).2]
  dsimp only [bind, Option.bind]
  rw [hpower]
  dsimp only [pure]
  rw [List.append_nil, decimalValue_toDigits]
  simp

/-! ## Values and their first character -/

theorem skipBlanks_of_isDigit {c : Char} (h : c.isDigit = true) (cs : List Char) :
    skipBlanks (c :: cs) = c :: cs := by
  refine List.dropWhile_cons_of_neg ?_
  simp only [Bool.or_eq_true, beq_iff_eq, not_or]
  refine ⟨⟨⟨?_, ?_⟩, ?_⟩, ?_⟩ <;> rintro rfl <;> cases h

theorem value_of_isDigit {c : Char} (h : c.isDigit = true) (fuel : Nat) (cs : List Char) :
    value (fuel + 1) (c :: cs) = number false (c :: cs) := by
  rw [value, skipBlanks_of_isDigit h]
  split
  case h_8 => rfl
  all_goals
    next heq =>
    obtain ⟨rfl, -⟩ := List.cons.inj heq
    cases h

theorem value_minus (fuel : Nat) (cs : List Char) :
    value (fuel + 1) ('-' :: cs) = number true cs := by
  rw [value]
  rfl

theorem value_toDigits (m fuel : Nat) (rest : List Char) :
    value (fuel + 1) (Nat.toDigits 10 m ++ rest) = number false (Nat.toDigits 10 m ++ rest) := by
  have hdigits := isDigit_of_mem_toDigits m
  have hne : Nat.toDigits 10 m ≠ [] := Nat.toDigits_ne_nil
  generalize Nat.toDigits 10 m = ds at hdigits hne ⊢
  cases ds with
  | nil => exact absurd rfl hne
  | cons d ds => exact value_of_isDigit (hdigits d List.mem_cons_self) fuel (ds ++ rest)

theorem exponent_toDigits (n : Nat) {rest : List Char} (h : EndsNumber rest) :
    exponent ('e' :: (Nat.toDigits 10 n ++ rest)) = some (some (n : Int), rest) := by
  have hdigits := exponentDigits_toDigits false n h
  have hall := isDigit_of_mem_toDigits n
  have hne : Nat.toDigits 10 n ≠ [] := Nat.toDigits_ne_nil
  generalize Nat.toDigits 10 n = ds at hdigits hall hne ⊢
  cases ds with
  | nil => exact absurd rfl hne
  | cons d ds =>
    have hd : d.isDigit = true := hall d List.mem_cons_self
    unfold exponent
    dsimp only
    rw [if_pos (Or.inl rfl), List.cons_append]
    split
    · next heq =>
      obtain ⟨rfl, -⟩ := List.cons.inj heq
      cases hd
    · next heq =>
      obtain ⟨rfl, -⟩ := List.cons.inj heq
      cases hd
    · exact hdigits

theorem exponent_minus_toDigits (n : Nat) {rest : List Char} (h : EndsNumber rest) :
    exponent ('e' :: '-' :: (Nat.toDigits 10 n ++ rest)) = some (some (-(n : Int)), rest) :=
  exponentDigits_toDigits true n h

end Reader

/-! ## Numbers as they are printed -/

/-- A number as a reader finds it: whole numbers that are kept exactly are those of 64 bits. -/
def Number.IsExact : Number → Prop
  | .natural n => n < UInt64.size
  | .negative n => 0 < n ∧ n ≤ UInt64.size / 2
  | .decimal .. => True

theorem toList_toString (n : Nat) : (toString n).toList = Nat.toDigits 10 n := by
  rw [Nat.toString_eq_repr, Nat.toList_repr]

/-- A decimal is read from its sign, its digits and its exponent. -/
theorem value_decimal (isNegative : Bool) (m : Nat) {e : Int} {text rest : List Char}
    (h : Reader.exponent ('e' :: text) = some (some e, rest)) (fuel : Nat) :
    Reader.value (fuel + 1) ((if isNegative then "-" else "").toList
        ++ (Nat.toDigits 10 m ++ 'e' :: text))
      = some (.number (.decimal isNegative m e), rest) := by
  have hstart : ∀ c ∈ ('e' :: text).head?, c.isDigit = false ∧ c ≠ '.' := by
    rintro c ⟨⟩
    decide
  have hnumber := Reader.number_toDigits isNegative m hstart h
  cases isNegative with
  | false =>
    have hsign : (if false = true then "-" else "").toList = [] := rfl
    rw [hsign, List.nil_append, Reader.value_toDigits, hnumber]
    simp
  | true =>
    have hsign : (if true = true then "-" else "").toList = ['-'] := rfl
    rw [hsign, List.singleton_append, Reader.value_minus, hnumber]
    simp

/-- A number is read from its text if nothing follows that goes on with it. -/
theorem Number.IsExact.value_render {n : Number} (h : n.IsExact) (fuel : Nat) {rest : List Char}
    (hrest : Reader.EndsNumber rest) :
    Reader.value (fuel + 1) (n.render.toList ++ rest) = some (.number n, rest) := by
  have hsign : "-".toList = ['-'] := rfl
  have hstart : ∀ c ∈ rest.head?, c.isDigit = false ∧ c ≠ '.' :=
    fun c hc ↦ ⟨(hrest c hc).1, (hrest c hc).2.1⟩
  have hnone := Reader.exponent_of_ends hrest
  cases n with
  | natural n =>
    have hn : n < UInt64.size := h
    rw [render, toList_toString, Reader.value_toDigits,
      Reader.number_toDigits false n hstart hnone]
    simp [hn]
  | negative n =>
    obtain ⟨hpos, hn⟩ : 0 < n ∧ n ≤ UInt64.size / 2 := h
    rw [render, String.toList_append, toList_toString, hsign, List.singleton_append,
      List.cons_append, Reader.value_minus, Reader.number_toDigits true n hstart hnone]
    simp [hpos, hn]
  | decimal isNegative m e =>
    have hexponent : "e".toList = ['e'] := rfl
    unfold render
    dsimp only
    rw [String.toList_append, String.toList_append, String.toList_append, toList_toString,
      hexponent, List.append_assoc, List.append_assoc, List.append_assoc, List.singleton_append]
    cases e with
    | ofNat k =>
      dsimp only
      rw [toList_toString]
      exact value_decimal isNegative m (Reader.exponent_toDigits k hrest) fuel
    | negSucc k =>
      dsimp only
      rw [String.toList_append, toList_toString, hsign, List.singleton_append]
      exact value_decimal isNegative m (Reader.exponent_minus_toDigits (k + 1) hrest) fuel

/-! ## Values as they are printed -/

/-- A value whose numbers are as a reader finds them. -/
inductive IsExact : Json → Prop
  | null : IsExact .null
  | bool (b : Bool) : IsExact (.bool b)
  | number {n : Number} (h : n.IsExact) : IsExact (.number n)
  | string (s : String) : IsExact (.string s)
  | array {items : List Json} (h : ∀ v ∈ items, IsExact v) : IsExact (.array items)
  | object {fields : List (String × Json)} (h : ∀ f ∈ fields, IsExact f.2) :
      IsExact (.object fields)

/-- A value is read from its text wherever a number would end. -/
def IsRead (v : Json) : Prop :=
  ∀ (fuel : Nat) (rest : List Char), 2 * v.render.toList.length + 1 ≤ fuel →
    Reader.EndsNumber rest → Reader.value fuel (v.render.toList ++ rest) = some (v, rest)

/-- The first character of a value: neither a blank nor the end of an array. -/
def Begins (c : Char) : Prop :=
  c ≠ ' ' ∧ c ≠ '\n' ∧ c ≠ '\t' ∧ c ≠ '\r' ∧ c ≠ ']'
  deriving Decidable

theorem Begins.skipBlanks {c : Char} (h : Begins c) (cs : List Char) :
    Reader.skipBlanks (c :: cs) = c :: cs := by
  obtain ⟨hspace, hfeed, htab, hreturn, -⟩ := h
  exact List.dropWhile_cons_of_neg (by simp [hspace, hfeed, htab, hreturn])

theorem begins_of_isDigit {c : Char} (h : c.isDigit = true) : Begins c := by
  refine ⟨?_, ?_, ?_, ?_, ?_⟩ <;> rintro rfl <;> cases h

theorem exists_begins_toDigits (n : Nat) (rest : List Char) :
    ∃ c cs, Nat.toDigits 10 n ++ rest = c :: cs ∧ Begins c := by
  obtain ⟨d, ds, hds⟩ := List.exists_cons_of_ne_nil (l := Nat.toDigits 10 n) Nat.toDigits_ne_nil
  refine ⟨d, ds ++ rest, by rw [hds, List.cons_append], begins_of_isDigit ?_⟩
  exact Reader.isDigit_of_mem_toDigits n d (hds ▸ List.mem_cons_self)

/-- The text of a value begins as a value does. -/
theorem exists_begins (v : Json) : ∃ c cs, v.render.toList = c :: cs ∧ Begins c := by
  have hsign : "-".toList = ['-'] := rfl
  have hminus : Begins '-' := by decide
  cases v with
  | null => exact ⟨'n', _, rfl, by decide⟩
  | bool b =>
    cases b with
    | false => exact ⟨'f', _, rfl, by decide⟩
    | true => exact ⟨'t', _, rfl, by decide⟩
  | number n =>
    rw [render]
    cases n with
    | natural n =>
      rw [Number.render, toList_toString, ← List.append_nil (Nat.toDigits 10 n)]
      exact exists_begins_toDigits n []
    | negative n =>
      rw [Number.render, String.toList_append, hsign]
      exact ⟨'-', _, rfl, hminus⟩
    | decimal isNegative m e =>
      unfold Number.render
      dsimp only
      rw [String.toList_append, String.toList_append, String.toList_append, toList_toString,
        List.append_assoc, List.append_assoc]
      cases isNegative with
      | false => exact exists_begins_toDigits m _
      | true => exact ⟨'-', _, rfl, hminus⟩
  | string s => exact ⟨'"', _, by rw [render, Quoted.quote, String.toList_ofList]; rfl, by decide⟩
  | array items =>
    exact ⟨'[', _, by rw [render, String.toList_append, String.toList_append]; rfl, by decide⟩
  | object fields =>
    exact ⟨'\x7b', _, by rw [render, String.toList_append, String.toList_append]; rfl, by decide⟩

/-! ## Arrays -/

section Arrays

variable {fuel : Nat} {rest cs ds : List Char} {v : Json} {vs : List Json}

theorem endsNumber_cons {c : Char} (h : c = ',' ∨ c = ']' ∨ c = '\x7d') (cs : List Char) :
    Reader.EndsNumber (c :: cs) := by
  rintro d ⟨⟩
  rcases h with rfl | rfl | rfl <;> decide

theorem items_last (h : Reader.value fuel cs = some (v, ']' :: rest)) :
    Reader.items (fuel + 1) cs = some ([v], rest) := by
  rw [Reader.items, h]
  rfl

theorem items_more (hv : Reader.value fuel cs = some (v, ',' :: ds))
    (hvs : Reader.items fuel ds = some (vs, rest)) :
    Reader.items (fuel + 1) cs = some (v :: vs, rest) := by
  have hcomma : Reader.skipBlanks (',' :: ds) = ',' :: ds := rfl
  rw [Reader.items, hv]
  simp only [Option.bind_eq_bind, Option.bind_some, hcomma, hvs]
  rfl

theorem value_items {c : Char} (hc : Begins c) (h : Reader.items fuel (c :: cs) = some (vs, rest)) :
    Reader.value (fuel + 1) ('[' :: c :: cs) = some (array vs, rest) := by
  have hbracket : Reader.skipBlanks ('[' :: c :: cs) = '[' :: c :: cs := rfl
  rw [Reader.value]
  simp only [hbracket, hc.skipBlanks]
  split
  · next heq =>
    obtain ⟨rfl, -⟩ := List.cons.inj heq
    exact absurd rfl hc.2.2.2.2
  · rw [h]
    rfl

theorem toList_renderItems_cons (v w : Json) (vs : List Json) :
    (renderItems (v :: w :: vs)).toList
      = v.render.toList ++ ',' :: (renderItems (w :: vs)).toList := by
  rw [renderItems, String.toList_append, String.toList_append, List.append_assoc]
  rfl

/-- The items of an array are read one after the other. -/
theorem items_render (h : ∀ w ∈ v :: vs, w.IsRead)
    (hfuel : 2 * (renderItems (v :: vs)).toList.length + 2 ≤ fuel) (rest : List Char) :
    Reader.items fuel ((renderItems (v :: vs)).toList ++ ']' :: rest) = some (v :: vs, rest) := by
  obtain ⟨fuel, rfl⟩ : ∃ n, fuel = n + 1 := ⟨fuel - 1, by omega⟩
  have hv : v.IsRead := h v List.mem_cons_self
  induction vs generalizing v fuel with
  | nil =>
    rw [renderItems] at hfuel ⊢
    exact items_last (hv fuel _ (by omega) (endsNumber_cons (.inr (.inl rfl)) rest))
  | cons w vs ih =>
    rw [toList_renderItems_cons, List.length_append, List.length_cons] at hfuel
    have hvs : ∀ u ∈ w :: vs, u.IsRead := fun u hu ↦ h u (List.mem_cons_of_mem v hu)
    obtain ⟨fuel, rfl⟩ : ∃ n, fuel = n + 1 := ⟨fuel - 1, by omega⟩
    rw [toList_renderItems_cons, List.append_assoc, List.cons_append]
    exact items_more (hv (fuel + 1) _ (by omega) (endsNumber_cons (.inl rfl) _))
      (ih hvs fuel (by omega) (hvs w List.mem_cons_self))

theorem isRead_array {items : List Json} (h : ∀ v ∈ items, v.IsRead) : (array items).IsRead := by
  intro fuel rest hfuel _
  have htext : (array items).render.toList ++ rest
      = '[' :: ((renderItems items).toList ++ ']' :: rest) := by
    rw [render, String.toList_append, String.toList_append, List.append_assoc, List.append_assoc]
    rfl
  have hlength : (array items).render.toList.length = (renderItems items).toList.length + 2 := by
    rw [render, String.toList_append, String.toList_append]
    simp
  obtain ⟨fuel, rfl⟩ : ∃ n, fuel = n + 1 := ⟨fuel - 1, by omega⟩
  rw [htext]
  cases items with
  | nil =>
    rw [Reader.value]
    rfl
  | cons v vs =>
    obtain ⟨c, cs, hc, hbegins⟩ : ∃ c cs,
        (renderItems (v :: vs)).toList ++ ']' :: rest = c :: cs ∧ Begins c := by
      obtain ⟨c, cs, hc, hbegins⟩ := v.exists_begins
      cases vs with
      | nil => exact ⟨c, _, by rw [renderItems, hc]; rfl, hbegins⟩
      | cons w vs => exact ⟨c, _, by rw [toList_renderItems_cons, hc]; rfl, hbegins⟩
    have hitems : Reader.items fuel ((renderItems (v :: vs)).toList ++ ']' :: rest)
        = some (v :: vs, rest) := items_render h (by omega) rest
    rw [hc] at hitems ⊢
    exact value_items hbegins hitems

end Arrays

/-! ## Objects -/

section Objects

variable {fuel : Nat} {rest cs ds es : List Char} {k : String} {v : Json}
  {fs : List (String × Json)}

theorem fields_last (hk : Reader.string cs = some (k, ':' :: ds))
    (hv : Reader.value fuel ds = some (v, '\x7d' :: rest)) :
    Reader.fields (fuel + 1) ('"' :: cs) = some ([(k, v)], rest) := by
  have hquote : Reader.skipBlanks ('"' :: cs) = '"' :: cs := rfl
  have hcolon : Reader.skipBlanks (':' :: ds) = ':' :: ds := rfl
  have hbrace : Reader.skipBlanks ('\x7d' :: rest) = '\x7d' :: rest := rfl
  rw [Reader.fields]
  simp only [Option.bind_eq_bind, Option.bind_some, hquote, hk, hcolon, hv, hbrace]
  rfl

theorem fields_more (hk : Reader.string cs = some (k, ':' :: ds))
    (hv : Reader.value fuel ds = some (v, ',' :: es))
    (hfs : Reader.fields fuel es = some (fs, rest)) :
    Reader.fields (fuel + 1) ('"' :: cs) = some ((k, v) :: fs, rest) := by
  have hquote : Reader.skipBlanks ('"' :: cs) = '"' :: cs := rfl
  have hcolon : Reader.skipBlanks (':' :: ds) = ':' :: ds := rfl
  have hcomma : Reader.skipBlanks (',' :: es) = ',' :: es := rfl
  rw [Reader.fields]
  simp only [Option.bind_eq_bind, Option.bind_some, hquote, hk, hcolon, hv, hcomma, hfs]
  rfl

theorem value_fields (h : Reader.fields fuel ('"' :: cs) = some (fs, rest)) :
    Reader.value (fuel + 1) ('\x7b' :: '"' :: cs) = some (object fs, rest) := by
  have hbrace : Reader.skipBlanks ('\x7b' :: '"' :: cs) = '\x7b' :: '"' :: cs := rfl
  have hquote : Reader.skipBlanks ('"' :: cs) = '"' :: cs := rfl
  rw [Reader.value]
  simp only [hbrace, hquote]
  split
  · next heq => cases heq
  · rw [h]
    rfl

theorem toList_quote (s : String) (rest : List Char) :
    (Quoted.quote s).toList ++ rest = '"' :: (s.toList.flatMap Quoted.escape ++ '"' :: rest) := by
  rw [Quoted.quote, String.toList_ofList, Quoted.encode, List.append_assoc]
  rfl

/-- The text of a field. -/
def renderField (f : String × Json) : List Char :=
  (Quoted.quote f.1).toList ++ ':' :: f.2.render.toList

theorem renderField_append (f : String × Json) (cs : List Char) :
    renderField f ++ cs
      = '"' :: (f.1.toList.flatMap Quoted.escape ++ '"' :: ':' :: (f.2.render.toList ++ cs)) := by
  rw [renderField, List.append_assoc, List.cons_append, toList_quote]

theorem length_renderField (f : String × Json) :
    f.2.render.toList.length ≤ (renderField f).length := by
  rw [renderField, List.length_append, List.length_cons]
  omega

theorem toList_renderFields_singleton (f : String × Json) :
    (renderFields [f]).toList = renderField f := by
  rw [renderFields, String.toList_append, String.toList_append, List.append_assoc]
  rfl

theorem toList_renderFields_cons (f g : String × Json) (fs : List (String × Json)) :
    (renderFields (f :: g :: fs)).toList
      = renderField f ++ ',' :: (renderFields (g :: fs)).toList := by
  rw [renderFields, String.toList_append, String.toList_append, String.toList_append,
    String.toList_append, renderField]
  simp

/-- The fields of an object are read one after the other. -/
theorem fields_render {f : String × Json} (h : ∀ g ∈ f :: fs, g.2.IsRead)
    (hfuel : 2 * (renderFields (f :: fs)).toList.length + 2 ≤ fuel) (rest : List Char) :
    Reader.fields fuel ((renderFields (f :: fs)).toList ++ '\x7d' :: rest)
      = some (f :: fs, rest) := by
  obtain ⟨fuel, rfl⟩ : ∃ n, fuel = n + 1 := ⟨fuel - 1, by omega⟩
  have hf : f.2.IsRead := h f List.mem_cons_self
  have hlength := length_renderField f
  induction fs generalizing f fuel with
  | nil =>
    rw [toList_renderFields_singleton] at hfuel ⊢
    rw [renderField_append]
    exact fields_last (Reader.string_append f.1 _)
      (hf fuel _ (by omega) (endsNumber_cons (.inr (.inr rfl)) rest))
  | cons g fs ih =>
    rw [toList_renderFields_cons, List.length_append, List.length_cons] at hfuel
    have hfs : ∀ u ∈ g :: fs, u.2.IsRead := fun u hu ↦ h u (List.mem_cons_of_mem f hu)
    obtain ⟨fuel, rfl⟩ : ∃ n, fuel = n + 1 := ⟨fuel - 1, by omega⟩
    rw [toList_renderFields_cons, List.append_assoc, List.cons_append, renderField_append]
    exact fields_more (Reader.string_append f.1 _)
      (hf (fuel + 1) _ (by omega) (endsNumber_cons (.inl rfl) _))
      (ih hfs fuel (by omega) (hfs g List.mem_cons_self) (length_renderField g))

theorem isRead_object {fields : List (String × Json)} (h : ∀ f ∈ fields, f.2.IsRead) :
    (object fields).IsRead := by
  intro fuel rest hfuel _
  have htext : (object fields).render.toList ++ rest
      = '\x7b' :: ((renderFields fields).toList ++ '\x7d' :: rest) := by
    rw [render, String.toList_append, String.toList_append, List.append_assoc, List.append_assoc]
    rfl
  have hlength :
      (object fields).render.toList.length = (renderFields fields).toList.length + 2 := by
    rw [render, String.toList_append, String.toList_append]
    simp
  obtain ⟨fuel, rfl⟩ : ∃ n, fuel = n + 1 := ⟨fuel - 1, by omega⟩
  rw [htext]
  cases fields with
  | nil =>
    rw [Reader.value]
    rfl
  | cons f fs =>
    obtain ⟨cs, hcs⟩ : ∃ cs, (renderFields (f :: fs)).toList ++ '\x7d' :: rest = '"' :: cs := by
      cases fs with
      | nil => exact ⟨_, by rw [toList_renderFields_singleton, renderField_append]⟩
      | cons g fs =>
        exact ⟨_, by rw [toList_renderFields_cons, List.append_assoc, renderField_append]⟩
    have hfields : Reader.fields fuel ((renderFields (f :: fs)).toList ++ '\x7d' :: rest)
        = some (f :: fs, rest) := fields_render h (by omega) rest
    rw [hcs] at hfields ⊢
    exact value_fields hfields

end Objects

/-! ## Whole texts -/

theorem isRead_null : null.IsRead := by
  intro fuel rest hfuel _
  obtain ⟨fuel, rfl⟩ : ∃ n, fuel = n + 1 := ⟨fuel - 1, by omega⟩
  rw [Reader.value]
  rfl

theorem isRead_bool (b : Bool) : (bool b).IsRead := by
  intro fuel rest hfuel _
  obtain ⟨fuel, rfl⟩ : ∃ n, fuel = n + 1 := ⟨fuel - 1, by omega⟩
  rw [Reader.value]
  cases b <;> rfl

theorem isRead_string (s : String) : (string s).IsRead := by
  intro fuel rest hfuel _
  obtain ⟨fuel, rfl⟩ : ∃ n, fuel = n + 1 := ⟨fuel - 1, by omega⟩
  have hquote (cs : List Char) : Reader.skipBlanks ('"' :: cs) = '"' :: cs := rfl
  rw [render, toList_quote, Reader.value]
  simp only [hquote, Reader.string_append]
  rfl

theorem isRead_number {n : Number} (h : n.IsExact) : (number n).IsRead := by
  intro fuel rest hfuel hrest
  obtain ⟨fuel, rfl⟩ : ∃ n, fuel = n + 1 := ⟨fuel - 1, by omega⟩
  rw [render]
  exact h.value_render fuel hrest

theorem IsExact.isRead {v : Json} (h : v.IsExact) : v.IsRead := by
  induction h with
  | null => exact isRead_null
  | bool b => exact isRead_bool b
  | number h => exact isRead_number h
  | string s => exact isRead_string s
  | array _ ih => exact isRead_array ih
  | object _ ih => exact isRead_object ih

/-- A value is what its text is read as. -/
theorem parse_render {v : Json} (h : v.IsExact) : parse v.render = some v := by
  have hread := h.isRead (2 * v.render.toList.length + 1) [] (Nat.le_refl _) nofun
  rw [List.append_nil] at hread
  rw [parse]
  dsimp only
  rw [hread]
  rfl

end Downlevel.Json
