import Downlevel.Text.Letter
import Mathlib.Data.List.Basic

/-!
# Classes of characters

No character is a surrogate. Those of an ASCII name are among the first 128, so what holds of each
of them is found by looking at these.
-/

namespace Downlevel.Text

variable {c : Char} {name : String}

/-- No character is a surrogate. -/
theorem toNat_lt_or_le (c : Char) : c.toNat < 0xd800 ∨ 0xe000 ≤ c.toNat :=
  c.valid.imp id fun h ↦ h.1

/-! ## Names of ASCII characters -/

theorem toNat_lt_of_isAsciiNamePart (h : isAsciiNamePart c = true) : c.toNat < 128 := by
  have hle : ∀ bound : UInt32, c.val ≤ bound → c.toNat ≤ bound.toNat := fun _ hc ↦
    UInt32.le_iff_toNat_le.mp hc
  rw [isAsciiNamePart, isAsciiNameStart, Bool.or_eq_true, Bool.or_eq_true, Bool.or_eq_true,
    beq_iff_eq, beq_iff_eq] at h
  rcases h with ((halpha | rfl) | rfl) | hdigit
  · rcases Bool.or_eq_true_iff.mp halpha with hupper | hlower
    · exact Nat.lt_of_le_of_lt (hle 'Z'.val (of_decide_eq_true hupper).2) (by decide)
    · exact Nat.lt_of_le_of_lt
        (hle 'z'.val (of_decide_eq_true (Bool.and_eq_true_iff.mp hlower).2)) (by decide)
  · decide
  · decide
  · exact Nat.lt_of_le_of_lt
      (hle '9'.val (of_decide_eq_true (Bool.and_eq_true_iff.mp hdigit).2)) (by decide)

/-- No control character stands in an ASCII name. -/
theorem le_toNat_of_isAsciiNamePart (h : isAsciiNamePart c = true) : 0x20 ≤ c.toNat := by
  have hall : ∀ n < 0x20, isAsciiNamePart (Char.ofNat n) = false := by decide
  refine Nat.le_of_not_lt fun hlt ↦ ?_
  have hc := hall _ hlt
  rw [Char.ofNat_toNat, h] at hc
  cases hc

theorem isNamePart_of_isAsciiNamePart (h : isAsciiNamePart c = true) : isNamePart c = true := by
  rw [isNamePart, if_pos (toNat_lt_of_isAsciiNamePart h), h]

theorem isAsciiNamePart_of_isAsciiNameStart (h : isAsciiNameStart c = true) :
    isAsciiNamePart c = true := by
  rw [isAsciiNamePart, h, Bool.true_or]

theorem isNameStart_of_isAsciiNameStart (h : isAsciiNameStart c = true) : isNameStart c = true := by
  have hsmall := toNat_lt_of_isAsciiNamePart (isAsciiNamePart_of_isAsciiNameStart h)
  rw [isNameStart, if_pos hsmall, h]

/-- What starts an ASCII name is neither a blank nor a line end nor a digit. -/
theorem isBlank_of_isAsciiNameStart (h : isAsciiNameStart c = true) :
    isBlank c = false ∧ isLineEnd c = false ∧ c.isDigit = false := by
  have hall : ∀ n < 128, isAsciiNameStart (Char.ofNat n) = true →
      isBlank (Char.ofNat n) = false ∧ isLineEnd (Char.ofNat n) = false ∧
        (Char.ofNat n).isDigit = false := by
    decide +kernel
  have hc := hall _ (toNat_lt_of_isAsciiNamePart (isAsciiNamePart_of_isAsciiNameStart h))
  rw [Char.ofNat_toNat] at hc
  exact hc h

theorem exists_of_isAsciiName (h : isAsciiName name = true) :
    ∃ c cs, name.toList = c :: cs ∧ isAsciiNameStart c = true ∧
      ∀ d ∈ cs, isAsciiNamePart d = true := by
  unfold isAsciiName at h
  split at h
  · cases h
  · next c cs hname =>
    rw [Bool.and_eq_true, List.all_eq_true] at h
    exact ⟨c, cs, hname, h⟩

theorem isAsciiNamePart_of_isAsciiName (h : isAsciiName name = true) :
    ∀ c ∈ name.toList, isAsciiNamePart c = true := by
  obtain ⟨c, cs, hname, hc, hcs⟩ := exists_of_isAsciiName h
  rw [hname]
  exact List.forall_mem_cons.mpr ⟨isAsciiNamePart_of_isAsciiNameStart hc, hcs⟩

theorem isNamePart_of_isAsciiName (h : isAsciiName name = true) :
    ∀ c ∈ name.toList, isNamePart c = true := fun c hc ↦
  isNamePart_of_isAsciiNamePart (isAsciiNamePart_of_isAsciiName h c hc)

end Downlevel.Text
