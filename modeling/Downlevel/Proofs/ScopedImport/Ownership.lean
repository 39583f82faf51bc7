import Downlevel.ScopedImport.Basic
import Mathlib.Data.List.Basic
import Mathlib.Data.List.Nodup

/-!
# Owners of module names

A namespace ends in a slash, and the part of it that tells the kinds apart has none. So no namespace
is the start of another one, a module name lies in at most one of them, and the module of helpers
lies in none. Every module name has at most one owner, and it does not matter in which order, or how
often, the kinds are tried.
-/

namespace Downlevel.ScopedImport

variable {k k' : ScopedImport} {specifier : String}

/-! ## Namespaces -/

theorem mem_all (k : ScopedImport) : k ∈ all := by
  cases k <;> decide

/-- The kinds have namespaces of their own. -/
theorem segment_injective : Function.Injective segment := by
  have hnodup : (all.map segment).Nodup := by decide
  exact fun k k' h ↦ List.inj_on_of_nodup_map hnodup (mem_all k) (mem_all k') h

theorem slash_notMem_segment (k : ScopedImport) : '/' ∉ k.segment.toList := by
  have hall : ∀ k ∈ all, '/' ∉ k.segment.toList := by decide
  exact hall k (mem_all k)

theorem toList_namespacePrefix (k : ScopedImport) :
    k.namespacePrefix.toList = "@salesforce/".toList ++ (k.segment.toList ++ ['/']) := by
  rw [namespacePrefix, root, String.toList_append, String.toList_append, List.append_assoc]
  rfl

theorem eq_of_namespace_le
    (h : k.namespacePrefix.toList <+: k'.namespacePrefix.toList) : k = k' := by
  rw [toList_namespacePrefix, toList_namespacePrefix, List.prefix_append_right_inj] at h
  obtain ⟨rest, hrest⟩ := h
  rw [List.append_assoc, List.singleton_append] at hrest
  -- The slash behind the segment of `k'` is the only one on its side.
  obtain ⟨hsegment, -, -⟩ := (List.append_cons_inj_of_notMem (slash_notMem_segment k')
    List.not_mem_nil).mp hrest.symm
  exact segment_injective (String.toList_injective hsegment.symm)

/-! ## Owners -/

theorem isSome_resource?_iff :
    (k.resource? specifier).isSome = true ↔ k.namespacePrefix.toList <+: specifier.toList := by
  unfold resource?
  dsimp only
  rw [← List.isPrefixOf_iff_prefix]
  split
  · next h => simp [h]
  · next h => simp [h]

theorem resource?_helperModule (k : ScopedImport) : k.resource? helperModule = none := by
  have hall : ∀ k ∈ all, k.resource? helperModule = none := by decide
  exact hall k (mem_all k)

theorem owns_iff : k.owns specifier = true ↔
    k = apex ∧ specifier = helperModule ∨ k.namespacePrefix.toList <+: specifier.toList := by
  rw [owns, Bool.or_eq_true, Bool.and_eq_true, beq_iff_eq, beq_iff_eq, isSome_resource?_iff]

/-- Only one kind owns the module of helpers. -/
theorem owns_helperModule_iff : k.owns helperModule = true ↔ k = apex := by
  rw [owns, resource?_helperModule]
  simp

theorem owns_of_owner?_eq_some {kinds : List ScopedImport} (h : owner? kinds specifier = some k) :
    k ∈ kinds ∧ k.owns specifier = true := by
  rw [owner?] at h
  have howns := List.find?_some h
  exact ⟨List.mem_of_find?_eq_some h, howns⟩

/-- A module name has at most one owner. -/
theorem eq_of_owns (h : k.owns specifier = true) (h' : k'.owns specifier = true) : k = k' := by
  by_cases hhelpers : specifier = helperModule
  · rw [hhelpers, owns_helperModule_iff] at h h'
    rw [h, h']
  · have hlies : ∀ {j : ScopedImport}, j.owns specifier = true →
        j.namespacePrefix.toList <+: specifier.toList :=
      fun hj ↦ (owns_iff.mp hj).resolve_left fun hapex ↦ hhelpers hapex.2
    -- Both namespaces are starts of the name, so the shorter one is a start of the other.
    rcases List.prefix_or_prefix_of_prefix (hlies h) (hlies h') with hle | hle
    · exact eq_of_namespace_le hle
    · exact (eq_of_namespace_le hle).symm

theorem owner?_eq_some_iff {kinds : List ScopedImport} :
    owner? kinds specifier = some k ↔ k ∈ kinds ∧ k.owns specifier = true := by
  constructor
  · exact owns_of_owner?_eq_some
  · rintro ⟨hmem, howns⟩
    cases hfound : owner? kinds specifier with
    | none => exact absurd howns (List.find?_eq_none.mp hfound k hmem)
    | some k' => rw [eq_of_owns (owns_of_owner?_eq_some hfound).2 howns]

/-- The owner of a module name among some kinds does not depend on their order. -/
theorem owner?_congr {kinds kinds' : List ScopedImport} (h : ∀ k, k ∈ kinds ↔ k ∈ kinds') :
    owner? kinds specifier = owner? kinds' specifier := by
  refine Option.ext fun k ↦ ?_
  rw [owner?_eq_some_iff, owner?_eq_some_iff, h k]

end Downlevel.ScopedImport
