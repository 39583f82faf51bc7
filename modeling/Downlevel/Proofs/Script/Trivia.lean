import Downlevel.Proofs.Script.Literal
import Downlevel.Script.Scanner
import Mathlib.Data.List.TakeWhile

/-!
# What stands between tokens

Between two tokens stand blanks, line ends and comments, and nothing else. White space as Unicode
has it is not the same: a comment is none, and neither is every blank. Where something else than
white space stands between two tokens, the first such character starts a comment or is a blank, so
it starts no word.
-/

namespace Downlevel.Script

open Text Literal

/-- A text of blanks, line ends and comments. -/
inductive IsTrivia : List Char → Prop
  | nil : IsTrivia []
  | blank {c : Char} {cs : List Char} (hc : isLineEnd c = true ∨ isBlank c = true)
      (h : IsTrivia cs) : IsTrivia (c :: cs)
  /-- A comment up to the end of its line. -/
  | lineComment {inside cs : List Char} (hinside : ∀ c ∈ inside, isLineEnd c = false)
      (hend : ∀ c ∈ cs.head?, isLineEnd c = true) (h : IsTrivia cs) :
      IsTrivia ('/' :: '/' :: (inside ++ cs))
  /-- A comment up to its first closing mark. -/
  | blockComment {inside rest cs : List Char}
      (hinside : Scanner.blockComment (inside ++ rest) = some (inside, rest)) (h : IsTrivia cs) :
      IsTrivia ('/' :: '*' :: (inside ++ cs))

/-- Whether a text is nothing but white space. -/
def isWhite (cs : List Char) : Bool := cs.all isWhiteSpace

namespace IsTrivia

variable {gap cs : List Char}

/-- A word behind a text between tokens starts directly behind its white space only if the text is
nothing but white space. -/
theorem prefix_dropWhile_iff (h : IsTrivia gap) {d : Char} {ds : List Char} (hslash : d ≠ '/')
    (hend : isLineEnd d = false) (hblank : isBlank d = false) :
    d :: ds <+: (gap ++ cs).dropWhile isWhiteSpace
      ↔ isWhite gap = true ∧ d :: ds <+: cs.dropWhile isWhiteSpace := by
  -- What does not start with the first character of the word does not start with the word.
  have hother {c : Char} {gap : List Char} (hc : isWhiteSpace c = false) (hne : d ≠ c) :
      d :: ds <+: (c :: gap ++ cs).dropWhile isWhiteSpace
        ↔ isWhite (c :: gap) = true ∧ d :: ds <+: cs.dropWhile isWhiteSpace := by
    rw [List.cons_append, List.dropWhile_cons_of_neg (by simp [hc]), List.cons_prefix_cons]
    simp [isWhite, hc, hne]
  induction h with
  | nil => simp [isWhite]
  | @blank c gap hc _ ih =>
    cases hwhite : isWhiteSpace c with
    | true =>
      rw [List.cons_append, List.dropWhile_cons_of_pos hwhite]
      simpa [isWhite, hwhite] using ih
    | false =>
      refine hother hwhite ?_
      rintro rfl
      rw [hend, hblank] at hc
      simp at hc
  | lineComment => exact hother (by decide) hslash
  | blockComment => exact hother (by decide) hslash

end IsTrivia

namespace Scanner

theorem blockComment_eq_some {cs text rest : List Char}
    (h : blockComment cs = some (text, rest)) : cs = text ++ rest := by
  induction cs using blockComment.induct generalizing text with
  | case1 cs =>
    cases h
    rfl
  | case2 c cs hend ih =>
    rw [blockComment] at h
    · obtain ⟨⟨text', rest'⟩, hmore, h⟩ := Option.map_eq_some_iff.mp h
      cases h
      rw [List.cons_append, ← ih hmore]
    · exact hend
  | case3 => cases h

/-- From one gap to another one nothing but blanks, line ends and comments are passed. -/
def Skips (g g' : Gap) : Prop :=
  ∃ gap, IsTrivia gap ∧ g.rest = gap ++ g'.rest ∧ g'.pos = g.pos + width gap

theorem Skips.refl (g : Gap) : Skips g g := ⟨[], .nil, rfl, rfl⟩

theorem Skips.cons {g g₁ g' : Gap} (taken : List Char) (hrest : g.rest = taken ++ g₁.rest)
    (hpos : g₁.pos = g.pos + width taken)
    (htrivia : ∀ gap, IsTrivia gap → gap <+: g₁.rest → IsTrivia (taken ++ gap))
    (h : Skips g₁ g') : Skips g g' := by
  obtain ⟨gap, hgap, hleft, hstop⟩ := h
  refine ⟨taken ++ gap, htrivia gap hgap ⟨g'.rest, hleft.symm⟩, ?_, ?_⟩
  · rw [hrest, hleft, List.append_assoc]
  · rw [hstop, hpos, width_append, Nat.add_assoc]

/-- A comment that ends with its line. -/
theorem isTrivia_lineComment {cs gap : List Char} (h : IsTrivia gap)
    (hbefore : gap <+: (cs.span fun c ↦ !isLineEnd c).2) :
    IsTrivia ('/' :: '/' :: (cs.span fun c ↦ !isLineEnd c).1 ++ gap) := by
  rw [List.span_eq_takeWhile_dropWhile] at hbefore ⊢
  refine .lineComment (fun c hc ↦ ?_) (fun c hc ↦ ?_) h
  · simpa using List.mem_takeWhile_imp hc
  · obtain ⟨tail, rfl⟩ := List.head?_eq_some_iff.mp hc
    obtain ⟨rest, hrest⟩ := hbefore
    have hfirst := List.head?_dropWhile_not (fun c ↦ !isLineEnd c) cs
    dsimp only at hrest
    rw [← hrest] at hfirst
    simpa using hfirst

/-- What is skipped in front of a token is blanks, line ends and comments. -/
theorem skips_skip (opens : Bool) (fuel : List Char) (g : Gap) :
    Skips g (skip opens fuel g) := by
  induction fuel generalizing g with
  | nil => exact .refl g
  | cons _ fuel ih =>
    rw [skip]
    split
    · exact .refl g
    · next cs hrest =>
      refine .cons ('/' :: '/' :: (cs.span fun c ↦ !isLineEnd c).1) ?_ rfl
        (fun gap hgap hbefore ↦ isTrivia_lineComment hgap hbefore) (ih _)
      have hspan : (cs.span fun c ↦ !isLineEnd c).1 ++ (cs.span fun c ↦ !isLineEnd c).2 = cs := by
        rw [List.span_eq_takeWhile_dropWhile, List.takeWhile_append_dropWhile]
      exact hrest.trans (congrArg (fun cs ↦ '/' :: '/' :: cs) hspan.symm)
    · next cs hrest =>
      split
      · exact .refl g
      · next inside rest hblock =>
        refine .cons ('/' :: '*' :: inside) ?_ rfl ?_ (ih _)
        · rw [hrest, blockComment_eq_some hblock]
          rfl
        · intro gap hgap _
          rw [blockComment_eq_some hblock] at hblock
          exact .blockComment hblock hgap
    · next c rest _ _ hrest =>
      split
      · next hend =>
        refine .cons [c] ?_ rfl (fun gap hgap _ ↦ .blank (.inl hend) hgap) (ih _)
        exact hrest
      · split
        · next hblank =>
          refine .cons [c] ?_ rfl (fun gap hgap _ ↦ .blank (.inr hblank) hgap) (ih _)
          exact hrest
        · exact .refl g

end Scanner

end Downlevel.Script
