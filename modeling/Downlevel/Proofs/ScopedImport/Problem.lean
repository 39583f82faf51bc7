import Downlevel.Proofs.ScopedImport.Ownership
import Downlevel.ScopedImport.Statement
import Mathlib.Data.List.Forall2

/-!
# Imports without a meaning

Whether a specifier of a module of the platform has a meaning is a matter of its syntax: a default
specifier of a module in a namespace has one, and so has the name of a helper of the module of
helpers. Of the specifiers without a meaning the first one is reported, and an import is refused
only if there is one.
-/

namespace Downlevel

/-! ## The first fault -/

/-- What is wrong with the first of some things with which anything is wrong. -/
inductive FirstFault {α ε : Type} (Wrong : α → ε → Prop) : List α → ε → Prop
  | here {a : α} {as : List α} {e : ε} : Wrong a e → FirstFault Wrong (a :: as) e
  | later {a : α} {as : List α} {e : ε} :
      (∀ e, ¬Wrong a e) → FirstFault Wrong as e → FirstFault Wrong (a :: as) e

namespace FirstFault

variable {α β ε σ : Type} {Wrong : α → ε → Prop} {Wrong' : β → ε → Prop} {a : α} {as : List α}
  {bs : List β} {e : ε}

theorem not_nil : ¬FirstFault Wrong [] e := nofun

theorem cons_iff : FirstFault Wrong (a :: as) e ↔
    Wrong a e ∨ (∀ e, ¬Wrong a e) ∧ FirstFault Wrong as e := by
  constructor
  · rintro (ha | ⟨ha, has⟩)
    · exact .inl ha
    · exact .inr ⟨ha, has⟩
  · rintro (ha | ⟨ha, has⟩)
    · exact .here ha
    · exact .later ha has

theorem congr (h : List.Forall₂ (fun a b ↦ ∀ e, Wrong a e ↔ Wrong' b e) as bs) :
    FirstFault Wrong as e ↔ FirstFault Wrong' bs e := by
  induction h with
  | nil => exact iff_of_false not_nil not_nil
  | cons hhead _ ih => rw [cons_iff, cons_iff, hhead, ih, forall_congr' fun e ↦ not_congr (hhead e)]

end FirstFault

namespace ScopedImport

open Script

variable {kind : ScopedImport} {specifier : String} {problem : Problem}

/-! ## Specifiers without a meaning -/

end ScopedImport

end Downlevel
