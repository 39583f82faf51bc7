import Downlevel.Text.Base64
import Mathlib.Data.List.Basic

/-!
# Reading base 64

The reader takes four digits at a time, and only the last four may be filled up. What is written for
a sequence of bytes is read as these bytes, whichever of the three ways the last group ends in.
-/

namespace Downlevel.Text.Base64

/-! ## The reader -/

/-- The value of a digit. -/
def value? (c : Char) : Option Nat := alphabet.idxOf? c

/-- The bytes that digits stand for. Bits that a filled group does not use have to be zero. -/
def decode? : List Char → Option (List Nat)
  | [] => some []
  | [x, y, '=', '='] => do
    let a ← value? x
    let b ← value? y
    if b % 16 = 0 then some [a * 4 + b / 16] else none
  | [x, y, z, '='] => do
    let a ← value? x
    let b ← value? y
    let c ← value? z
    if c % 4 = 0 then some [a * 4 + b / 16, b % 16 * 16 + c / 4] else none
  | x :: y :: z :: w :: rest => do
    let a ← value? x
    let b ← value? y
    let c ← value? z
    let d ← value? w
    let bytes ← decode? rest
    some ((a * 4 + b / 16) :: (b % 16 * 16 + c / 4) :: (c % 4 * 64 + d) :: bytes)
  | _ => none

/-! ## Digits -/

theorem value?_digit {n : Nat} (h : n < 64) : value? (digit n) = some n := by
  have hall : ∀ n < 64, value? (digit n) = some n := by decide +kernel
  exact hall n h

theorem digit_ne_pad {n : Nat} (h : n < 64) : digit n ≠ '=' := by
  have hall : ∀ n < 64, digit n ≠ '=' := by decide +kernel
  exact hall n h

/-- Digits are read as the bytes that they were written for. -/
theorem decode?_digits {bytes : List Nat} (h : ∀ b ∈ bytes, b < 256) :
    decode? (digits bytes) = some bytes := by
  fun_induction digits bytes with
  | case1 => rfl
  | case2 a =>
    -- One byte is two digits and two pads, two bytes are three digits and one pad.
    have ha : a < 256 := h a List.mem_cons_self
    rw [decode?, value?_digit (by omega), value?_digit (by omega)]
    dsimp only [bind, Option.bind]
    rw [if_pos (by omega)]
    congr 2
    omega
  | case3 a b =>
    simp only [List.forall_mem_cons] at h
    obtain ⟨ha, hb, -⟩ := h
    rw [decode?, value?_digit (by omega), value?_digit (by omega), value?_digit (by omega)]
    · dsimp only [bind, Option.bind]
      rw [if_pos (by omega)]
      congr 2
      · omega
      · congr 1
        omega
    · exact fun hpad ↦ digit_ne_pad (by omega) hpad
  | case4 a b c rest ih =>
    simp only [List.forall_mem_cons] at h
    obtain ⟨ha, hb, hc, hrest⟩ := h
    rw [decode?, value?_digit (by omega), value?_digit (by omega), value?_digit (by omega),
      value?_digit (by omega), ih hrest]
    · dsimp only [bind, Option.bind]
      congr 2
      · omega
      · congr 1
        · omega
        · congr 1
          omega
    · exact fun hpad _ ↦ absurd hpad (digit_ne_pad (by omega))
    · exact fun hpad _ ↦ absurd hpad (digit_ne_pad (by omega))

/-- Nothing but letters, digits and three signs is written. -/
theorem mem_of_mem_digits {bytes : List Nat} {c : Char} (h : c ∈ digits bytes) :
    c ∈ alphabet ∨ c = '=' := by
  have hdigit (n : Nat) : digit n ∈ alphabet ∨ digit n = '=' := by
    rw [digit, List.getD_eq_getElem?_getD]
    cases hn : alphabet[n]? with
    | none => exact .inr rfl
    | some c => exact .inl (List.mem_of_getElem? hn)
  fun_induction digits bytes with
  | case1 => cases h
  | case2 a =>
    simp only [List.mem_cons, List.not_mem_nil, or_false] at h
    rcases h with rfl | rfl | rfl | rfl
    · exact hdigit _
    · exact hdigit _
    · exact .inr rfl
    · exact .inr rfl
  | case3 a b =>
    simp only [List.mem_cons, List.not_mem_nil, or_false] at h
    rcases h with rfl | rfl | rfl | rfl
    · exact hdigit _
    · exact hdigit _
    · exact hdigit _
    · exact .inr rfl
  | case4 a b c rest ih =>
    simp only [List.mem_cons] at h
    rcases h with rfl | rfl | rfl | rfl | h
    · exact hdigit _
    · exact hdigit _
    · exact hdigit _
    · exact hdigit _
    · exact ih h

end Downlevel.Text.Base64
