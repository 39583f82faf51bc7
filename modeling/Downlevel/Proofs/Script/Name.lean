import Downlevel.Script.Binding
import Downlevel.Script.Name
import Mathlib.Order.Interval.Finset.Nat
import Std.Data.String.ToNat

/-!
# Names in use and unused names

The search for an unused name tries candidates in their order. It ends because the candidates differ
from each other: among one more of them than there are names in use, one is free. So the fuel of the
search is never what stops it. The names in use include all that the declarations of a script
declare, in whatever pattern they stand.
-/

namespace Downlevel.Script

/-! ## Unused names -/

theorem candidate_of_lt {base : String} {n : Nat} (h : n < 2) : candidate base n = base :=
  if_pos h

theorem candidate_of_le {base : String} {n : Nat} (h : 2 ≤ n) :
    candidate base n = base ++ toString n := if_neg (by omega)

theorem toList_candidate (base : String) (n : Nat) :
    ∃ digits, (candidate base n).toList = base.toList ++ digits ∧
      ∀ c ∈ digits, c.isDigit = true := by
  by_cases h : n < 2
  · exact ⟨[], by rw [candidate_of_lt h, List.append_nil], by simp⟩
  · refine ⟨Nat.toDigits 10 n, ?_, fun c hc ↦ ?_⟩
    · rw [candidate_of_le (by omega), String.toList_append]
      exact congrArg _ Nat.toList_repr
    · exact Nat.isDigit_of_mem_toDigits (by decide) (by decide) hc

/-- The candidates from the first one on differ from each other. -/
theorem candidate_injective {base : String} {i j : Nat} (hi : 1 ≤ i) (hj : 1 ≤ j)
    (h : candidate base i = candidate base j) : i = j := by
  have hne : ∀ n, 2 ≤ n → candidate base n ≠ base := by
    intro n hn hbase
    have hlist := congrArg String.toList hbase
    rw [candidate_of_le hn, String.toList_append, List.append_right_eq_self] at hlist
    have hdigits : Nat.toDigits 10 n = [] := Nat.toList_repr.symm.trans hlist
    exact Nat.toDigits_ne_nil hdigits
  by_cases hi' : 2 ≤ i
  · by_cases hj' : 2 ≤ j
    · rw [candidate_of_le hi', candidate_of_le hj', String.append_right_inj] at h
      exact Nat.repr_injective h
    · exact absurd (h.trans (candidate_of_lt (by omega))) (hne i hi')
  · by_cases hj' : 2 ≤ j
    · exact absurd (h.symm.trans (candidate_of_lt (by omega))) (hne j hj')
    · omega

/-- The search gives the first free candidate, unless its fuel ends before. -/
theorem firstFree_eq (used : List String) (base : String) (fuel n : Nat) :
    ∃ k, firstFree used base fuel n = candidate base k ∧ n ≤ k ∧ k ≤ n + fuel ∧
      (∀ j, n ≤ j → j < k → candidate base j ∈ used) ∧
      (k < n + fuel → candidate base k ∉ used) := by
  induction fuel generalizing n with
  | zero => exact ⟨n, rfl, Nat.le_refl n, Nat.le_refl n, by omega, by omega⟩
  | succ fuel ih =>
    rw [firstFree]
    by_cases hused : candidate base n ∈ used
    · obtain ⟨k, hk, hle, hlimit, hbefore, hfree⟩ := ih (n + 1)
      rw [if_pos (List.contains_iff_mem.mpr hused)]
      refine ⟨k, hk, by omega, by omega, fun j hj hjk ↦ ?_, fun h ↦ hfree (by omega)⟩
      rcases Nat.eq_or_lt_of_le hj with rfl | hlt
      · exact hused
      · exact hbefore j hlt hjk
    · rw [if_neg (by rwa [List.contains_iff_mem])]
      exact ⟨n, rfl, Nat.le_refl n, by omega, by omega, fun _ ↦ hused⟩

/-- Among one more candidate than there are different names in use, one is free. -/
theorem exists_candidate_notMem (used : List String) (base : String) :
    ∃ k, 1 ≤ k ∧ k ≤ used.toFinset.card + 1 ∧ candidate base k ∉ used := by
  let numbers := Finset.Icc 1 (used.toFinset.card + 1)
  have hinj : Set.InjOn (candidate base) numbers := fun i hi j hj h ↦
    candidate_injective (Finset.mem_Icc.mp hi).1 (Finset.mem_Icc.mp hj).1 h
  have hmore : used.toFinset.card < (numbers.image (candidate base)).card := by
    rw [Finset.card_image_of_injOn hinj, Nat.card_Icc]
    omega
  obtain ⟨name, hname, hfree⟩ := Finset.exists_mem_notMem_of_card_lt_card hmore
  obtain ⟨k, hk, rfl⟩ := Finset.mem_image.mp hname
  obtain ⟨hone, hle⟩ := Finset.mem_Icc.mp hk
  exact ⟨k, hone, hle, fun hmem ↦ hfree (List.mem_toFinset.mpr hmem)⟩

/-- An unused name is the first candidate that is not in use. -/
theorem unusedName_eq_candidate (used : List String) (base : String) :
    ∃ k, unusedName used base = candidate base k ∧ 1 ≤ k ∧ k ≤ used.toFinset.card + 1 ∧
      (∀ j, 1 ≤ j → j < k → candidate base j ∈ used) ∧ candidate base k ∉ used := by
  obtain ⟨k, hk, hone, -, hbefore, hfree⟩ := firstFree_eq used base (used.length + 1) 1
  obtain ⟨j, hj, hjle, hjfree⟩ := exists_candidate_notMem used base
  have hkj : k ≤ j := by
    by_contra hlt
    exact hjfree (hbefore j hj (by omega))
  -- The fuel counts names that stand in the list twice, too, so it lasts beyond the free candidate.
  have hlength := List.toFinset_card_le used
  exact ⟨k, hk, hone, by omega, hbefore, hfree (by omega)⟩

theorem unusedName_notMem (used : List String) (base : String) : unusedName used base ∉ used := by
  obtain ⟨k, hk, -, -, -, hfree⟩ := unusedName_eq_candidate used base
  rwa [hk]

/-- An unused name is the base with digits behind it, if any. -/
theorem toList_unusedName (used : List String) (base : String) :
    ∃ digits, (unusedName used base).toList = base.toList ++ digits ∧
      ∀ c ∈ digits, c.isDigit = true := by
  obtain ⟨k, hk, -⟩ := unusedName_eq_candidate used base
  rw [hk]
  exact toList_candidate base k

/-! ## Names of a script -/

theorem namesIn_cons (n : Node) (ns : List Node) :
    namesIn (n :: ns) = namesIn [n] ++ namesIn ns := by
  simp [namesIn, Node.nodes, Node.visitList]

theorem mem_namesIn {name : String} {ns : List Node} :
    name ∈ namesIn ns ↔ ∃ n ∈ ns, name ∈ namesIn [n] := by
  induction ns with
  | nil => simp [namesIn, Node.nodes, Node.visitList]
  | cons n ns ih =>
    rw [namesIn_cons, List.mem_append, ih]
    simp

namespace Node

/-- A walk over a node goes over what is inside it. -/
theorem namesIn_subset {n : Node} {ns : List Node}
    (h : visitList (fun _ _ ↦ some ()) () ns ⊆ visit (fun _ _ ↦ some ()) () n) :
    namesIn ns ⊆ namesIn [n] := by
  intro name hname
  simp only [namesIn, nodes, List.mem_flatMap, List.mem_map] at hname ⊢
  obtain ⟨m, ⟨p, hp, rfl⟩, hname⟩ := hname
  exact ⟨_, ⟨p, by rw [visitList, visitList, List.append_nil]; exact h hp, rfl⟩, hname⟩

theorem ownNames_subset (n : Node) : n.ownNames ⊆ namesIn [n] := by
  intro name hname
  rw [namesIn, List.mem_flatMap]
  refine ⟨n, List.mem_map.mpr ⟨((), n), ?_, rfl⟩, hname⟩
  rw [visitList, visitList, List.append_nil]
  -- Each constructor reaches itself first; unfolding the walk for all of them at once is slow.
  cases n <;> exact List.mem_cons_self

/-- A walk over a node goes over a part of it. -/
theorem namesIn_singleton_subset {n part : Node}
    (h : visit (fun _ _ ↦ some ()) () part ⊆ visit (fun _ _ ↦ some ()) () n) :
    namesIn [part] ⊆ namesIn [n] := by
  refine namesIn_subset ?_
  rw [visitList, visitList, List.append_nil]
  exact h

mutual

/-- The names that a pattern binds are names of it. -/
theorem boundNames_subset (n : Node) : n.boundNames ⊆ namesIn [n] := by
  unfold boundNames
  split
  · next n => exact ownNames_subset (.identifier n)
  · next es =>
    exact List.Subset.trans (boundNamesOfList_subset es) (namesIn_subset (List.subset_cons_self ..))
  · next ps =>
    exact List.Subset.trans (boundNamesOfList_subset ps) (namesIn_subset (List.subset_cons_self ..))
  · next p =>
    exact List.Subset.trans (boundNames_subset p) (namesIn_singleton_subset (List.subset_cons_self ..))
  · next p =>
    refine List.Subset.trans (boundNames_subset p) (namesIn_singleton_subset ?_)
    exact List.subset_cons_of_subset _ (List.subset_append_right ..)
  · next n i => exact ownNames_subset (.shorthand n i)
  · next p _ =>
    refine List.Subset.trans (boundNames_subset p) (namesIn_singleton_subset ?_)
    exact List.subset_cons_of_subset _ (List.subset_append_left ..)
  · next p =>
    refine List.Subset.trans (boundNames_subset p) (namesIn_singleton_subset ?_)
    exact List.subset_cons_of_subset _ (List.subset_append_right ..)
  · next p _ =>
    refine List.Subset.trans (boundNames_subset p) (namesIn_singleton_subset ?_)
    exact List.subset_cons_of_subset _ (List.subset_append_left ..)
  · exact List.nil_subset _
termination_by sizeOf n

theorem boundNamesOfList_subset (ps : List Node) : boundNamesOfList ps ⊆ namesIn ps := by
  cases ps with
  | nil => exact List.nil_subset _
  | cons p ps =>
    rw [boundNamesOfList, namesIn_cons]
    exact List.append_subset.mpr ⟨List.Subset.trans (boundNames_subset p) (List.subset_append_left ..),
      List.Subset.trans (boundNamesOfList_subset ps) (List.subset_append_right ..)⟩
termination_by sizeOf ps

end

/-- The names that a declaration declares are names of it. -/
theorem declaredNames_subset (d : Node) : d.declaredNames ⊆ namesIn [d] := by
  unfold declaredNames
  split
  · next ds =>
    exact List.Subset.trans (boundNamesOfList_subset ds) (namesIn_subset (List.subset_cons_self ..))
  · next name isAsync isGenerator parameters body =>
    have hown := ownNames_subset (.function name isAsync isGenerator parameters body)
    have hname : name.toList ⊆
        (function name isAsync isGenerator parameters body).ownNames := by
      cases name <;> exact List.Subset.refl _
    exact List.Subset.trans (List.Subset.trans hname hown) (namesIn_singleton_subset (List.subset_cons_self ..))
  · next decorators name heritage members =>
    have hown := ownNames_subset (.classDef decorators name heritage members)
    have hname : name.toList ⊆ (classDef decorators name heritage members).ownNames := by
      cases name <;> exact List.Subset.refl _
    exact List.Subset.trans (List.Subset.trans hname hown) (namesIn_singleton_subset (List.subset_cons_self ..))
  · exact List.nil_subset _

end Node

end Downlevel.Script
