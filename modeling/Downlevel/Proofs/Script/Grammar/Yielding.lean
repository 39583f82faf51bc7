import Downlevel.Proofs.Script.Grammar.Module

/-!
# Rules that only make some things

What a rule makes has a property, in all surroundings or in those without types. This is kept by
everything rules are put together from, so there is one fact about each rule, and it follows the
text of the rule.
-/

namespace Downlevel.Script.Grammar

/-- In some surroundings, a rule only makes what has a property. -/
class YieldsWhere {α : Type} (T : Context → Prop) (P : α → Prop) (p : Reader α) : Prop where
  yields : ∀ {ctx : Context} {c c' : Cursor} {a : α}, T ctx → p ctx c = some (a, c') → P a

/-- Where no types may be written, a rule only makes what has a property. -/
abbrev Yields {α : Type} (P : α → Prop) (p : Reader α) : Prop :=
  YieldsWhere (fun ctx ↦ ctx.typed = false) P p

/-- A rule only ever makes what has a property. -/
abbrev Always {α : Type} (P : α → Prop) (p : Reader α) : Prop := YieldsWhere (fun _ ↦ True) P p

namespace YieldsWhere

variable {α β : Type} {T : Context → Prop} {P P' : α → Prop} {Q : β → Prop} {p q : Reader α}
  {f : α → Reader β}

theorem mono (h : YieldsWhere T P p) (hP : ∀ a, P a → P' a) : YieldsWhere T P' p where
  yields hctx hp := hP _ (h.yields hctx hp)

theorem pure {a : α} (h : P a) : YieldsWhere T P (Pure.pure a : Reader α) where
  yields _ hp := by
    cases hp
    exact h

theorem pure_none : YieldsWhere T (fun o ↦ ∀ a ∈ o, P a) (Pure.pure none : Reader (Option α)) :=
  pure (by simp)

theorem pure_some {a : α} (h : P a) :
    YieldsWhere T (fun o ↦ ∀ a ∈ o, P a) (Pure.pure (some a) : Reader (Option α)) :=
  pure (by simpa using h)

instance fail : YieldsWhere T P (Grammar.fail : Reader α) := ⟨fun _ h ↦ by cases h⟩

theorem bind (hp : YieldsWhere T P p) (hf : ∀ a, P a → YieldsWhere T Q (f a)) :
    YieldsWhere T Q (p >>= f) where
  yields hctx h := by
    obtain ⟨a, c₁, ha, h⟩ := exists_of_bind_eq_some h
    exact (hf a (hp.yields hctx ha)).yields hctx h

/-- What the first rule makes does not matter. -/
theorem step (hf : ∀ a, YieldsWhere T Q (f a)) : YieldsWhere T Q (p >>= f) where
  yields hctx h := by
    obtain ⟨a, c₁, -, h⟩ := exists_of_bind_eq_some h
    exact (hf a).yields hctx h

theorem ite {b : Prop} [Decidable b] (hp : YieldsWhere T P p) (hq : YieldsWhere T P q) :
    YieldsWhere T P (if b then p else q) := by
  split
  · exact hp
  · exact hq

theorem attempt (hp : YieldsWhere T P p) :
    YieldsWhere T (fun o ↦ ∀ a ∈ o, P a) (Grammar.attempt p) where
  yields hctx h := by
    unfold Grammar.attempt at h
    split at h
    · next hrun =>
      cases h
      rintro a ⟨⟩
      exact hp.yields hctx hrun
    · cases h
      rintro a ⟨⟩

theorem firstOf {P : Node → Prop} {rules : List (Reader Node)}
    (h : ∀ rule ∈ rules, YieldsWhere T P rule) :
    YieldsWhere T P (do
      for rule in rules do
        match ← Grammar.attempt rule with
        | some node => return node
        | none => Pure.pure ()
      Grammar.fail : Reader Node) where
  yields hctx hrules := by
    obtain ⟨rule, hmem, hrule⟩ := exists_of_firstOf hrules
    exact (h rule hmem).yields hctx hrule

/-- A step that goes on from what has a property only to what has it. -/
theorem repeats {a : α} {step : α → Reader (Option α)} (ha : P a)
    (hstep : ∀ a, P a → YieldsWhere T (fun o ↦ ∀ b ∈ o, P b) (step a)) :
    YieldsWhere T P (repeatFrom a step) where
  yields hctx h := by
    refine grow_induction (fun a _ ↦ P a) (fun a c o c' ha ho ↦ ?_) ha h
    cases o with
    | none => exact ha
    | some b => exact (hstep a ha).yields hctx ho b rfl

theorem return_some {p : Reader α} (hp : YieldsWhere T P p) :
    YieldsWhere T (fun o ↦ ∀ a ∈ o, P a) (p >>= fun a ↦ Pure.pure (some a)) :=
  bind hp fun _ ha ↦ pure_some ha

theorem spanned {P : Node → Prop} {p : Reader Node} (hp : YieldsWhere T P p) :
    YieldsWhere T (fun x ↦ P x.2) (Grammar.spanned p) :=
  step fun _ ↦ bind hp fun _ hn ↦ step fun _ ↦ pure hn

end YieldsWhere

section Always

variable {α : Type} {T : Context → Prop} {P : α → Prop} {p : Reader α}

/-- What a rule has made has the property. -/
theorem Always.made (hp : Always P p) {ctx : Context} {c c' : Cursor} {a : α}
    (h : p ctx c = some (a, c')) : P a :=
  hp.yields trivial h

theorem Always.anywhere (h : Always P p) : YieldsWhere T P p :=
  ⟨fun _ hp ↦ h.yields trivial hp⟩

theorem Always.within (g : Context → Context) (h : Always P p) :
    Always P (Grammar.within g p) :=
  ⟨fun _ hp ↦ h.yields trivial hp⟩

end Always

end Downlevel.Script.Grammar
