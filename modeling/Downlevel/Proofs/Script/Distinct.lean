import Downlevel.Script.Grammar.Module
import Mathlib.Data.List.Nodup

/-!
# Distinct exports

The grammar accepts a plain script only if the names it gives to its exports differ from each other.
-/

namespace Downlevel.Script

namespace Grammar

theorem areDistinct_iff {names : List String} : areDistinct names = true ↔ names.Nodup := by
  induction names with
  | nil => simp [areDistinct]
  | cons n ns ih => simp [areDistinct, ih]

/-- What a sequence of rules has read, its first rule has begun. -/
theorem exists_of_bind_eq_some {α β : Type} {p : Reader α} {f : α → Reader β} {ctx : Context}
    {c : Cursor} {x : β × Cursor} (h : (p >>= f) ctx c = some x) :
    ∃ a c', p ctx c = some (a, c') ∧ f a ctx c' = some x := by
  have hbind : (p >>= f) ctx c = (p ctx c).bind fun y ↦ f y.1 ctx y.2 := rfl
  rw [hbind, Option.bind_eq_some_iff] at h
  obtain ⟨⟨a, c'⟩, hp, hf⟩ := h
  exact ⟨a, c', hp, hf⟩

theorem of_guardThat_eq_some {b : Bool} {ctx : Context} {c : Cursor} {x : Unit × Cursor}
    (h : guardThat b ctx c = some x) : b = true := by
  unfold guardThat at h
  split at h
  · assumption
  · cases h

theorem distinct_of_moduleBody {r : Rules} {interpreter : Option String} {ctx : Context}
    {c c' : Cursor} {m : Module} (htyped : ctx.typed = false)
    (h : moduleBody r interpreter ctx c = some (m, c')) :
    (m.items.flatMap exportedNames).Nodup := by
  unfold moduleBody at h
  obtain ⟨items, c₁, -, h⟩ := exists_of_bind_eq_some h
  obtain ⟨place, c₂, -, h⟩ := exists_of_bind_eq_some h
  obtain ⟨_, c₃, -, h⟩ := exists_of_bind_eq_some h
  obtain ⟨typed, c₄, hread, h⟩ := exists_of_bind_eq_some h
  cases hread
  obtain ⟨_, c₅, hguard, h⟩ := exists_of_bind_eq_some h
  have hdistinct := of_guardThat_eq_some hguard
  rw [htyped, Bool.false_or, areDistinct_iff] at hdistinct
  cases h
  exact hdistinct

end Grammar

/-- The exports of a plain script differ in name. -/
theorem nodup_exportedNames {source : List Char} {m : Module} (h : parse false source = some m) :
    (m.items.flatMap Grammar.exportedNames).Nodup := by
  unfold parse at h
  dsimp only at h
  rw [Option.map_eq_some_iff] at h
  obtain ⟨⟨m', c⟩, hread, rfl⟩ := h
  exact Grammar.distinct_of_moduleBody rfl hread

end Downlevel.Script
