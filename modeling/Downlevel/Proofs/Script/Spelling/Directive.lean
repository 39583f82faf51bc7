import Downlevel.Proofs.Script.Grammar.Kind

/-!
# Statements that start with a string

A string at the start of a statement is read as one token. So a statement that becomes a directive
goes at least to the end of the string. The rules on the way from a statement to its first operand
are followed; each of them only asks for punctuation and words in front of it.
-/

namespace Downlevel.Script

/-- Whether a token is a string. -/
def Token.isString (t : Token) : Bool :=
  match t.kind with
  | .string .. => true
  | _ => false

namespace Grammar

section Token

variable {t : Token}

theorem exists_kind_of_isString (h : t.isString = true) :
    ∃ points raw, t.kind = .string points raw := by
  unfold Token.isString at h
  split at h
  · next points raw hkind => exact ⟨points, raw, hkind⟩
  · cases h

@[simp] theorem isMark_of_isString (h : t.isString = true) (s : String) : t.isMark s = false := by
  obtain ⟨points, raw, hkind⟩ := exists_kind_of_isString h
  rw [Token.isMark, hkind]

@[simp] theorem isWord_of_isString (h : t.isString = true) (s : String) : t.isWord s = false := by
  obtain ⟨points, raw, hkind⟩ := exists_kind_of_isString h
  rw [Token.isWord, hkind]

@[simp] theorem name?_of_isString (h : t.isString = true) : t.name? = none := by
  obtain ⟨points, raw, hkind⟩ := exists_kind_of_isString h
  rw [Token.name?, hkind]

end Token

variable {source : List Char} {ctx : Context} {c c' : Cursor}

/-! ## Rules that pass a string -/

/-- Where no types may be written, a rule that starts at a string reads all of it. -/
class Passes (source : List Char) {α : Type} (p : Reader α) : Prop where
  stop_le : ∀ {ctx : Context} {c c' : Cursor} {a : α}, ctx.typed = false → c.At source →
    c.token.isString = true → p ctx c = some (a, c') → c.token.span.stop ≤ c'.lastStop

namespace Passes

variable {α β : Type} {p q : Reader α} {f : α → Reader β}

theorem skip : Passes source Grammar.skip where
  stop_le _ _ _ h := by
    cases h
    exact Nat.le_refl _

theorem left [hp : Passes source p] [Steps source p] (hf : ∀ a, Steps source (f a)) :
    Passes source (p >>= f) where
  stop_le htyped hc hstring h := by
    obtain ⟨a, c₁, hp', hf'⟩ := exists_of_bind_eq_some h
    exact Nat.le_trans (hp.stop_le htyped hc hstring hp')
      ((hf a).reading (Steps.reading hc hp').place hf').last_le

theorem stay [hp : Stays p] (hf : ∀ a, Passes source (f a)) : Passes source (p >>= f) where
  stop_le htyped hc hstring h := by
    obtain ⟨a, c₁, ha, h⟩ := exists_of_bind_eq_some h
    cases hp.stays ha
    exact (hf a).stop_le htyped hc hstring h

theorem peek {f : Token → Reader β} (hf : ∀ t, t.isString = true → Passes source (f t)) :
    Passes source (Grammar.peek >>= f) where
  stop_le htyped hc hstring h := by
    obtain ⟨t, c₁, ht, h⟩ := exists_of_bind_eq_some h
    cases ht
    exact (hf _ hstring).stop_le htyped hc hstring h

/-- A question that has one answer in front of a string. -/
theorem asked {a : α} (hp : ∀ {ctx : Context} {c c' : Cursor} {b : α}, ctx.typed = false →
      c.token.isString = true → p ctx c = some (b, c') → b = a ∧ c' = c)
    (hf : Passes source (f a)) : Passes source (p >>= f) where
  stop_le htyped hc hstring h := by
    obtain ⟨b, c₁, hb, hrest⟩ := exists_of_bind_eq_some h
    obtain ⟨rfl, rfl⟩ := hp htyped hstring hb
    exact hf.stop_le htyped hc hstring hrest

theorem atMark {s : String} {f : Bool → Reader β} (hf : Passes source (f false)) :
    Passes source (isAtMark s >>= f) :=
  asked (fun _ hstring h ↦ by cases h; exact ⟨isMark_of_isString hstring s, rfl⟩) hf

theorem atWord {s : String} {f : Bool → Reader β} (hf : Passes source (f false)) :
    Passes source (isAtWord s >>= f) :=
  asked (fun _ hstring h ↦ by cases h; exact ⟨isWord_of_isString hstring s, rfl⟩) hf

theorem takeMark {s : String} {f : Bool → Reader β} (hf : Passes source (f false)) :
    Passes source (Grammar.takeMark s >>= f) :=
  asked (fun _ hstring h ↦ by
    rw [takeMark_eq, isMark_of_isString hstring] at h
    cases h
    exact ⟨rfl, rfl⟩) hf

theorem within {g : Context → Context} (hp : Passes source p)
    (hg : ∀ ctx, (g ctx).typed = ctx.typed) : Passes source (Grammar.within g p) where
  stop_le {ctx _ _ _} htyped hc hstring h :=
    hp.stop_le ((hg ctx).trans htyped) hc hstring h

instance [hp : Passes source p] : Passes source (inside p) := hp.within fun _ ↦ rfl

end Passes

/-- Where no types may be written, a rule that starts at a string makes an item that starts there and
reads all of the string. -/
class StartsItem (source : List Char) (p : Reader Node) : Prop where
  starts : ∀ {ctx : Context} {c c' : Cursor} {n : Node}, ctx.typed = false → c.At source →
    c.token.isString = true → p ctx c = some (n, c') → c.token.span.stop ≤ c'.lastStop ∧
      ∃ span leading body, n = .item span leading body ∧ span.start = c.token.span.start

/-- What is known of the rules that others enter. -/
class Rules.Pass (source : List Char) (r : Rules) : Prop where
  passes_assignment : Passes source r.assignment
  passes_expression : Passes source r.expression
  starts_statement (isSingle : Bool) : StartsItem source (r.statement isSingle)

attribute [instance] Rules.Pass.passes_assignment Rules.Pass.passes_expression
  Rules.Pass.starts_statement

variable (r : Rules) [Rules.Sound source r]

/-! ## Expressions -/

instance : Passes source (primary r) := by
  unfold primary
  refine .peek fun t ht ↦ ?_
  obtain ⟨points, raw, hkind⟩ := exists_kind_of_isString ht
  rw [hkind]
  have : Passes source skip := .skip
  exact .left fun _ ↦ inferInstance

instance : Passes source (Grammar.leftHandSide r) := by
  have hsteps (e : Node) : Steps source (accesses r true e) := (loop_accesses r source true e).1.steps
  unfold Grammar.leftHandSide
  exact .peek fun t _ ↦ .left fun e ↦ .bind fun (e, isChain) ↦ inferInstance

instance : Passes source (postfixed r) := by
  unfold postfixed
  refine .left fun e ↦ .bind fun t ↦ ?_
  split
  · exact .ite inferInstance inferInstance
  · infer_instance

instance : Passes source (Grammar.unary r) := by
  unfold Grammar.unary
  refine .peek fun t ht ↦ ?_
  obtain ⟨points, raw, hkind⟩ := exists_kind_of_isString ht
  have hunary : unaryOperator t = none := by rw [unaryOperator, hkind]
  have hupdate : updateOperator t = none := by rw [updateOperator, hkind]
  rw [hunary, hupdate]
  refine .stay fun isAsync ↦ ?_
  rw [isWord_of_isString ht, Bool.false_and, if_neg Bool.false_ne_true]
  refine .asked (fun htyped _ h ↦ ⟨Settles.eq htyped h, Stays.stays h⟩) (.stay fun _ ↦ ?_)
  rw [Bool.false_and, if_neg Bool.false_ne_true]
  infer_instance

instance (level : Nat) : Passes source (firstOperand r level) := by
  unfold firstOperand
  refine .peek fun t ht ↦ ?_
  obtain ⟨points, raw, hkind⟩ := exists_kind_of_isString ht
  rw [hkind]
  infer_instance

instance (level : Nat) : Passes source (Grammar.operand r level) := by
  unfold Grammar.operand
  refine .left fun first ↦ .repeats fun left ↦ .bind fun t ↦ .bind fun isTyped ↦
    .ite inferInstance (.bind fun o ↦ ?_)
  cases o with
  | none => infer_instance
  | some o => exact .ite inferInstance (.bind fun _ ↦ .bind fun _ ↦ inferInstance)

theorem startsParameters_of_isString {t : Token} {b : Bool} (ht : t.isString = true)
    (htyped : ctx.typed = false) (h : startsParameters t ctx c = some (b, c')) :
    b = false ∧ c' = c := by
  refine ⟨?_, Stays.stays h⟩
  unfold startsParameters at h
  obtain ⟨isTyped, c₁, hisTyped, h⟩ := exists_of_bind_eq_some h
  cases Settles.eq htyped hisTyped
  cases h
  rw [isMark_of_isString ht, Bool.false_and, Bool.or_false]

/-- No arrow function starts with a string. -/
theorem arrow_of_isString {o : Option Node} (htyped : ctx.typed = false)
    (hstring : c.token.isString = true) (h : arrow r ctx c = some (o, c')) :
    o = none ∧ c' = c := by
  unfold arrow at h
  obtain ⟨t, c₁, hpeek, h⟩ := exists_of_bind_eq_some h
  cases hpeek
  obtain ⟨following, c₁, hpeek, h⟩ := exists_of_bind_eq_some h
  cases hpeek
  simp only [name?_of_isString hstring, isWord_of_isString hstring, Option.isSome_none,
    Bool.false_and, Bool.false_eq_true, if_false] at h
  obtain ⟨b, c₁, hb, h⟩ := exists_of_bind_eq_some h
  cases Stays.stays hb
  obtain ⟨b, c₁, hb, h⟩ := exists_of_bind_eq_some h
  obtain ⟨hnone, hplace⟩ := startsParameters_of_isString hstring htyped hb
  rw [hnone, hplace, if_neg Bool.false_ne_true] at h
  cases h
  exact ⟨rfl, rfl⟩

/-- No pattern starts with a string. -/
instance : Passes source (targetPattern r) := by
  have hobject : Passes source (objectPattern r (targetElement r) (inside r.target)) := by
    unfold objectPattern mark
    simp only [bind_assoc]
    exact .takeMark ⟨fun _ _ _ h ↦ by cases h⟩
  unfold targetPattern
  refine .atMark ?_
  rw [if_neg Bool.false_ne_true]
  exact .left fun _ ↦ inferInstance

/-- What is assigned to goes on to where the expression before it ends, or is read again. -/
theorem stop_le_of_assigned {op : AssignmentOperator} {start : Cursor} {e t : Node}
    (htyped : ctx.typed = false) (hstart : start.At source)
    (hstring : start.token.isString = true) (hle : start.token.span.stop ≤ c.lastStop)
    (h : assigned r op start e ctx c = some (t, c')) : start.token.span.stop ≤ c'.lastStop := by
  unfold assigned at h
  split at h
  · unfold asTarget at h
    split at h
    · obtain ⟨u, c₁, hback, h⟩ := exists_of_bind_eq_some h
      cases hback
      exact Passes.stop_le htyped hstart hstring h
    · obtain ⟨u, c₁, hguard, h⟩ := exists_of_bind_eq_some h
      cases Stays.stays hguard
      cases h
      exact hle
  · obtain ⟨u, c₁, hguard, h⟩ := exists_of_bind_eq_some h
    cases Stays.stays hguard
    cases h
    exact hle

instance : Passes source (Grammar.assignment r) := by
  unfold Grammar.assignment
  refine .atWord (.stay fun _ ↦ ?_)
  rw [Bool.false_and, if_neg Bool.false_ne_true]
  refine .asked (fun htyped hstring h ↦ arrow_of_isString r htyped hstring h)
    ⟨fun {ctx c c' n} htyped hc hstring h ↦ ?_⟩
  obtain ⟨start, c₁, hplace, h⟩ := exists_of_bind_eq_some h
  cases hplace
  obtain ⟨left, c₁, hleft, h⟩ := exists_of_bind_eq_some h
  have hoperand : Fits source isImportCall c left c₁ := Expresses.fits hc hleft
  have hplace := hoperand.found.reading.place
  have hle := Passes.stop_le htyped hc hstring hleft
  obtain ⟨o, c₂, hoperator, h⟩ := exists_of_bind_eq_some h
  cases Stays.stays hoperator
  cases o with
  | none =>
    have hsteps := (opens_conditionalRest r source left).carries.steps
    have hrest : Steps source (do
        if ← isAtMark "?" then conditionalRest r left else return left) := inferInstance
    exact Nat.le_trans hle (hrest.reading hplace h).last_le
  | some o =>
    -- The operator and the value behind it are read from where the target ends.
    obtain ⟨target, c₂, htarget, h⟩ := exists_of_bind_eq_some h
    have hassigned := (found_assigned r hc hoperand.found hoperand.moved htarget).1
    have hrest : Steps source (do
        takeOperator o.2
        return Node.assignment o.1 target (← r.assignment)) := inferInstance
    exact Nat.le_trans (stop_le_of_assigned r htyped hc hstring hle htarget)
      (hrest.reading hassigned.reading.place h).last_le

instance [Rules.Pass source r] : Passes source (Grammar.expression r) := by
  have hlist : Passes source (commaSeparated r.assignment) := by
    unfold commaSeparated
    exact .left fun _ ↦ inferInstance
  unfold Grammar.expression
  refine .left fun es ↦ ?_
  split <;> infer_instance

/-! ## Statements -/

instance [Rules.Pass source r] : Passes source (expressionStatement r) := by
  unfold expressionStatement
  refine .peek fun t ht ↦ .stay fun _ ↦ ?_
  rw [name?_of_isString ht, Option.isSome_none, Bool.false_and, if_neg Bool.false_ne_true]
  exact .left fun _ ↦ inferInstance

theorem isAtVariables_of_isString {b : Bool} (hstring : c.token.isString = true)
    (h : isAtVariables ctx c = some (b, c')) : b = false ∧ c' = c := by
  refine ⟨?_, Stays.stays h⟩
  unfold isAtVariables at h
  obtain ⟨t, c₁, hpeek, h⟩ := exists_of_bind_eq_some h
  cases hpeek
  obtain ⟨following, c₁, hpeek, h⟩ := exists_of_bind_eq_some h
  cases hpeek
  simp only [isWord_of_isString hstring, Bool.false_and, Bool.false_eq_true, if_false] at h
  cases h
  rfl

theorem typedDeclaration_of_untyped {o : Option Node} (htyped : ctx.typed = false)
    (h : typedDeclaration r ctx c = some (o, c')) : o = none ∧ c' = c := by
  unfold typedDeclaration at h
  obtain ⟨isTyped, c₁, hisTyped, h⟩ := exists_of_bind_eq_some h
  cases Settles.eq htyped hisTyped
  cases Stays.stays hisTyped
  cases h
  exact ⟨rfl, rfl⟩

instance [Rules.Pass source r] (isSingle : Bool) : Passes source (plainStatement r isSingle) := by
  unfold plainStatement
  refine .peek fun t ht ↦ ?_
  rw [isMark_of_isString ht, if_neg Bool.false_ne_true]
  refine .takeMark ?_
  rw [if_neg Bool.false_ne_true, isMark_of_isString ht, if_neg Bool.false_ne_true]
  refine .asked (fun _ hstring h ↦ isAtVariables_of_isString hstring h) ?_
  rw [if_neg Bool.false_ne_true]
  refine .stay fun following ↦ ?_
  rw [isWord_of_isString ht, isWord_of_isString ht, Bool.false_and, Bool.false_and, Bool.or_false,
    if_neg Bool.false_ne_true]
  refine .asked (fun htyped _ h ↦ ⟨Settles.eq htyped h, Stays.stays h⟩) ?_
  rw [if_neg Bool.false_ne_true]
  refine .asked (fun htyped _ h ↦ typedDeclaration_of_untyped r htyped h) ?_
  unfold reservedStatement
  simp only [isWord_of_isString ht, Bool.false_eq_true, if_false]
  infer_instance

instance [Rules.Pass source r] (isSingle : Bool) : StartsItem source (statement r isSingle) where
  starts {ctx c c' n} htyped hc hstring h := by
    cases readsStatement_of_statement h with
    | plain hbody => exact ⟨Passes.stop_le htyped hc hstring hbody, _, _, _, rfl, rfl⟩
    | decoratedExport hmark => exact absurd hmark (by rw [isMark_of_isString hstring]; decide)
    | decorated hmark => exact absurd hmark (by rw [isMark_of_isString hstring]; decide)
    | exported hexport => exact absurd hexport (by rw [isWord_of_isString hstring]; decide)
    | imported himport => exact absurd himport (by rw [isWord_of_isString hstring]; decide)

end Grammar

end Downlevel.Script
