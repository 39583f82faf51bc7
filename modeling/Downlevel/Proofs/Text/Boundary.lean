import Downlevel.Text.Span
import Mathlib.Data.List.Basic

/-!
# Offsets between characters

A span is cut out cleanly only if its offsets fall between two characters. At such an offset a
text is the concatenation of what lies before and what lies behind it, and every statement about
slices becomes one about concatenations of lists. Slices of slices, and the line feeds in them, are
computed here once, so that what splices texts together needs no arithmetic of its own.
-/

namespace Downlevel

namespace Text

theorem width_cons (c : Char) (cs : List Char) : width (c :: cs) = c.utf8Size + width cs := rfl

theorem width_eq_zero {cs : List Char} : width cs = 0 ↔ cs = [] := by
  cases cs with
  | nil => simp [width]
  | cons c cs =>
    have hc := c.utf8Size_pos
    simp only [width_cons, reduceCtorEq, iff_false]
    omega

theorem takeBytes_append (as bs : List Char) : takeBytes (as ++ bs) (width as) = as := by
  induction as with
  | nil => exact takeBytes_zero bs
  | cons c cs ih =>
    have hc := c.utf8Size_pos
    rw [List.cons_append, takeBytes, width_cons, if_neg (by omega), Nat.add_sub_cancel_left, ih]

theorem dropBytes_append (as bs : List Char) : dropBytes (as ++ bs) (width as) = bs := by
  induction as with
  | nil => exact dropBytes_zero bs
  | cons c cs ih =>
    have hc := c.utf8Size_pos
    rw [List.cons_append, dropBytes, width_cons, if_neg (by omega), Nat.add_sub_cancel_left, ih]

/-! ## Boundaries -/

/-- An offset of a text that falls between two of its characters, or at one of its ends. -/
def IsBoundary (text : List Char) (n : Nat) : Prop := width (takeBytes text n) = n

instance (text : List Char) (n : Nat) : Decidable (IsBoundary text n) :=
  inferInstanceAs (Decidable (_ = _))

theorem isBoundary_append (as bs : List Char) : IsBoundary (as ++ bs) (width as) := by
  rw [IsBoundary, takeBytes_append]

theorem isBoundary_zero (text : List Char) : IsBoundary text 0 := isBoundary_append [] text

theorem isBoundary_width (text : List Char) : IsBoundary text (width text) := by
  have h := isBoundary_append text []
  rwa [List.append_nil] at h

theorem IsBoundary.exists_append {text : List Char} {n : Nat} (h : IsBoundary text n) :
    ∃ as bs, text = as ++ bs ∧ width as = n :=
  ⟨takeBytes text n, dropBytes text n, (takeBytes_append_dropBytes text n).symm, h⟩

theorem IsBoundary.le_width {text : List Char} {n : Nat} (h : IsBoundary text n) :
    n ≤ width text := by
  obtain ⟨as, bs, rfl, rfl⟩ := h.exists_append
  rw [width_append]
  exact Nat.le_add_right _ _

/-- Behind a boundary, the later boundaries are those of what is left. -/
theorem IsBoundary.of_append {as bs : List Char} {n : Nat} (h : IsBoundary (as ++ bs) n)
    (hle : width as ≤ n) : ∃ cs ds, bs = cs ++ ds ∧ n = width as + width cs := by
  obtain ⟨es, fs, heq, rfl⟩ := h.exists_append
  rcases List.append_eq_append_iff.mp heq with ⟨cs, rfl, rfl⟩ | ⟨cs, rfl, rfl⟩
  · exact ⟨cs, fs, rfl, width_append as cs⟩
  · rw [width_append] at hle
    have hcs : cs = [] := width_eq_zero.mp (by omega)
    subst hcs
    exact ⟨[], bs, rfl, by rw [List.append_nil]; rfl⟩

theorem slice_append (as bs cs : List Char) :
    slice (as ++ (bs ++ cs)) ⟨width as, width as + width bs⟩ = bs := by
  rw [slice, dropBytes_append, Nat.add_sub_cancel_left, takeBytes_append]

/-! ## Slices between boundaries -/

variable {text : List Char} {a b c d : Nat}

theorem slice_self (text : List Char) (n : Nat) : slice text ⟨n, n⟩ = [] := by
  rw [slice, Nat.sub_self, takeBytes_zero]

theorem slice_width (ha : IsBoundary text a) : slice text ⟨a, width text⟩ = dropBytes text a := by
  obtain ⟨as, bs, rfl, rfl⟩ := ha.exists_append
  have h := slice_append as bs []
  rw [List.append_nil, ← width_append] at h
  rw [h, dropBytes_append]

theorem slice_all (text : List Char) : slice text ⟨0, width text⟩ = text := by
  rw [slice_width (isBoundary_zero text), dropBytes_zero]

theorem width_slice (ha : IsBoundary text a) (hb : IsBoundary text b) (hab : a ≤ b) :
    width (slice text ⟨a, b⟩) = b - a := by
  obtain ⟨as, bs, rfl, rfl⟩ := ha.exists_append
  obtain ⟨bs, cs, rfl, rfl⟩ := hb.of_append hab
  rw [slice_append, Nat.add_sub_cancel_left]

/-- Adjacent slices join. -/
theorem slice_append_slice (ha : IsBoundary text a) (hb : IsBoundary text b)
    (hc : IsBoundary text c) (hab : a ≤ b) (hbc : b ≤ c) :
    slice text ⟨a, b⟩ ++ slice text ⟨b, c⟩ = slice text ⟨a, c⟩ := by
  obtain ⟨as, bs, rfl, rfl⟩ := ha.exists_append
  obtain ⟨bs, cs, rfl, rfl⟩ := hb.of_append hab
  -- The third boundary lies behind the first two parts taken together.
  rw [← List.append_assoc] at hc
  obtain ⟨cs, ds, rfl, rfl⟩ := hc.of_append (by rw [width_append]; exact hbc)
  have h₁ := slice_append as bs (cs ++ ds)
  have h₂ := slice_append (as ++ bs) cs ds
  have h₃ := slice_append as (bs ++ cs) ds
  simp only [List.append_assoc, width_append, ← Nat.add_assoc] at h₁ h₂ h₃ ⊢
  rw [h₁, h₂, h₃]

theorem slice_append_dropBytes (ha : IsBoundary text a) (hb : IsBoundary text b) (hab : a ≤ b) :
    slice text ⟨a, b⟩ ++ dropBytes text b = dropBytes text a := by
  obtain ⟨as, bs, rfl, rfl⟩ := ha.exists_append
  obtain ⟨bs, cs, rfl, rfl⟩ := hb.of_append hab
  rw [slice_append, ← width_append, ← List.append_assoc, dropBytes_append, List.append_assoc,
    dropBytes_append]

theorem takeBytes_slice (ha : IsBoundary text a) (hb : IsBoundary text b)
    (hc : IsBoundary text c) (hab : a ≤ b) (hbc : b ≤ c) :
    takeBytes (slice text ⟨a, c⟩) (b - a) = slice text ⟨a, b⟩ := by
  rw [← slice_append_slice ha hb hc hab hbc, ← width_slice ha hb hab, takeBytes_append]

theorem dropBytes_slice (ha : IsBoundary text a) (hb : IsBoundary text b)
    (hc : IsBoundary text c) (hab : a ≤ b) (hbc : b ≤ c) :
    dropBytes (slice text ⟨a, c⟩) (b - a) = slice text ⟨b, c⟩ := by
  rw [← slice_append_slice ha hb hc hab hbc, ← width_slice ha hb hab, dropBytes_append]

/-! ## Line feeds -/

@[simp] theorem newlines_append (as bs : List Char) :
    newlines (as ++ bs) = newlines as + newlines bs := List.count_append

@[simp] theorem newlines_nil : newlines [] = 0 := rfl

theorem newlines_cons_newline (cs : List Char) : newlines ('\n' :: cs) = newlines cs + 1 :=
  List.count_cons_self

theorem newlines_cons_of_ne {c : Char} (hc : c ≠ '\n') (cs : List Char) :
    newlines (c :: cs) = newlines cs :=
  List.count_cons_of_ne hc

theorem newlines_replicate (n : Nat) : newlines (List.replicate n '\n') = n :=
  List.count_replicate_self

theorem newlines_eq_zero {text : List Char} : newlines text = 0 ↔ '\n' ∉ text :=
  List.count_eq_zero

theorem newlines_slice_add (ha : IsBoundary text a) (hb : IsBoundary text b)
    (hc : IsBoundary text c) (hab : a ≤ b) (hbc : b ≤ c) :
    newlines (slice text ⟨a, b⟩) + newlines (slice text ⟨b, c⟩) = newlines (slice text ⟨a, c⟩) := by
  rw [← slice_append_slice ha hb hc hab hbc, newlines_append]

end Text

/-! ## Spans between boundaries -/

/-- A span that covers whole characters of a text. -/
structure Span.Covers (s : Span) (text : List Char) : Prop where
  start_le_stop : s.start ≤ s.stop
  start_isBoundary : Text.IsBoundary text s.start
  stop_isBoundary : Text.IsBoundary text s.stop

instance (s : Span) (text : List Char) : Decidable (s.Covers text) :=
  decidable_of_iff (s.start ≤ s.stop ∧ Text.IsBoundary text s.start ∧ Text.IsBoundary text s.stop)
    ⟨fun h ↦ ⟨h.1, h.2.1, h.2.2⟩, fun h ↦ ⟨h.1, h.2, h.3⟩⟩

end Downlevel
