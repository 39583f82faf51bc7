import Downlevel.CommonJs.Conversion
import Downlevel.Proofs.Script.Children
import Downlevel.Proofs.Script.Distinct
import Downlevel.Proofs.Script.Scanner
import Downlevel.Proofs.Text.Outermost
import Mathlib.Data.List.Perm.Subperm

/-!
# What rules read

A rule reads from one place of a text to a later one, and the dynamic imports in what it makes of it
stand in between, side by side. This is kept by everything rules are put together from, so there is
one fact about each rule, and it follows the text of the rule.
-/

namespace Downlevel.Script.Grammar

open Text CommonJs

/-! ## Imports in what is read -/

/-- The dynamic imports in a value, without those inside others, each with the span of its
argument. -/
class HasImports (α : Type) where
  imports : α → List (Span × Span)

export HasImports (imports)

/-- Most values have no nodes in them. -/
instance (priority := low) HasImports.leaf {α : Type} : HasImports α := ⟨fun _ ↦ []⟩

@[simp] theorem imports_leaf {α : Type} (a : α) : HasImports.leaf.imports a = [] := rfl

instance : HasImports Node where
  imports n := (Node.outermost (fun k ↦ (dynamicImport? k).isSome) [n]).filterMap dynamicImport?

section Instances

variable {α β : Type} [HasImports α] [HasImports β]

instance HasImports.list : HasImports (List α) := ⟨fun as ↦ as.flatMap imports⟩

instance : HasImports (Option α) := ⟨fun o ↦ o.toList.flatMap imports⟩

instance : HasImports (α × β) := ⟨fun p ↦ imports p.1 ++ imports p.2⟩

@[simp] theorem imports_nil : imports ([] : List α) = [] := rfl

@[simp] theorem imports_cons (a : α) (as : List α) : imports (a :: as) = imports a ++ imports as :=
  List.flatMap_cons

@[simp] theorem imports_append (as bs : List α) : imports (as ++ bs) = imports as ++ imports bs :=
  List.flatMap_append

@[simp] theorem imports_none : imports (none : Option α) = [] := rfl

@[simp] theorem imports_some (a : α) : imports (some a) = imports a := List.append_nil _

@[simp] theorem imports_toList (o : Option α) : imports o.toList = imports o := rfl

@[simp] theorem imports_mk (a : α) (b : β) : imports (a, b) = imports a ++ imports b := rfl

theorem imports_reverse_perm (as : List α) : (imports as.reverse).Perm (imports as) :=
  as.reverse_perm.flatMap_right _

@[simp] theorem imports_filterMap (as : List (Option α)) :
    imports (as.filterMap fun a ↦ a) = imports as := by
  induction as with
  | nil => rfl
  | cons a as ih =>
    cases a with
    | none => exact ih
    | some a =>
      have hcons : (some a :: as).filterMap (fun a ↦ a) = a :: as.filterMap fun a ↦ a := rfl
      rw [hcons, imports_cons, imports_cons, imports_some, ih]

end Instances

@[simp] theorem imports_leaves {α : Type} (as : List α) :
    @imports (List α) (@HasImports.list α .leaf) as = [] :=
  List.flatMap_eq_nil_iff.mpr fun _ _ ↦ rfl

theorem imports_outermost (ns : List Node) :
    (Node.outermost (fun k ↦ (dynamicImport? k).isSome) ns).filterMap dynamicImport?
      = imports ns := by
  rw [Node.outermost_eq, List.filterMap_flatMap]
  refine List.flatMap_congr fun n _ ↦ ?_
  change _ = (Node.outermost (fun k ↦ (dynamicImport? k).isSome) [n]).filterMap dynamicImport?
  rw [Node.outermost_eq _ [n], List.flatMap_singleton]

/-- The dynamic imports in a node that is none itself are those in the nodes right below it. -/
theorem imports_of_children {n : Node}
    (h : ∀ span argumentSpan argument options,
      n ≠ .importCall span argumentSpan argument options) :
    imports n = imports n.children := by
  have hnone : dynamicImport? n = none := by
    unfold dynamicImport?
    split
    · exact absurd rfl (h _ _ _ _)
    · rfl
  change (Node.outermost (fun k ↦ (dynamicImport? k).isSome) [n]).filterMap dynamicImport? = _
  rw [Node.outermost_eq, List.flatMap_singleton, List.filterMap_cons_none hnone, hnone,
    ← imports_outermost]
  rfl

theorem imports_importCall (span argumentSpan : Span) (argument : Node) (options : Option Node) :
    imports (Node.importCall span argumentSpan argument options) = [(span, argumentSpan)] := by
  change (Node.outermost (fun k ↦ (dynamicImport? k).isSome) [_]).filterMap dynamicImport? = _
  rw [Node.outermost_eq, List.flatMap_singleton]
  rfl

/-! ## Places -/

variable {source : List Char}

/-- A reader stands at a place of a text: its next token stands there, behind the last one and what
does not matter in between. -/
structure Cursor.At (source : List Char) (c : Cursor) : Prop where
  token : TokenAt source c.token c.rest
  last : IsBoundary source c.lastStop
  last_le : c.lastStop ≤ c.token.span.start
  gap : IsTrivia (slice source ⟨c.lastStop, c.token.span.start⟩)

/-- A dynamic import stands on whole characters, and its argument inside of it. -/
structure ImportAt (source : List Char) (p : Span × Span) : Prop where
  covers : p.1.Covers source
  argument_covers : p.2.Covers source
  start_lt : p.1.start < p.2.start
  stop_lt : p.2.stop < p.1.stop

theorem ImportAt.nonempty {p : Span × Span} (h : ImportAt source p) : p.1.start < p.1.stop :=
  Nat.lt_of_lt_of_le h.start_lt
    (Nat.le_trans h.argument_covers.start_le_stop (Nat.le_of_lt h.stop_lt))

/-- From one place to another one a reader has come upon dynamic imports, side by side. -/
structure Reading (source : List Char) (c c' : Cursor) (found : List (Span × Span)) : Prop where
  place : c'.At source
  last_le : c.lastStop ≤ c'.lastStop
  start_le : c.token.span.start ≤ c'.token.span.start
  importAt : ∀ p ∈ found, ImportAt source p
  inside : ∀ p ∈ found, c.token.span.start ≤ p.1.start ∧ p.1.stop ≤ c'.lastStop
  apart : found.Pairwise fun p q ↦ p.1.Apart q.1

namespace Reading

variable {c c' c'' : Cursor} {xs ys : List (Span × Span)}

theorem refl (hc : c.At source) : Reading source c c [] where
  place := hc
  last_le := Nat.le_refl _
  start_le := Nat.le_refl _
  importAt := nofun
  inside := nofun
  apart := .nil

theorem trans (h : Reading source c c' xs) (h' : Reading source c' c'' ys) :
    Reading source c c'' (xs ++ ys) where
  place := h'.place
  last_le := Nat.le_trans h.last_le h'.last_le
  start_le := Nat.le_trans h.start_le h'.start_le
  importAt := List.forall_mem_append.mpr ⟨h.importAt, h'.importAt⟩
  inside := List.forall_mem_append.mpr
    ⟨fun p hp ↦ ⟨(h.inside p hp).1, Nat.le_trans (h.inside p hp).2 h'.last_le⟩,
      fun p hp ↦ ⟨Nat.le_trans h.start_le (h'.inside p hp).1, (h'.inside p hp).2⟩⟩
  apart := List.pairwise_append.mpr ⟨h.apart, h'.apart, fun p hp q hq ↦
    .inl (Nat.le_trans (h.inside p hp).2 (Nat.le_trans h.place.last_le (h'.inside q hq).1))⟩

/-- What holds of the imports found holds of some of them in any order. -/
theorem of_subperm (h : Reading source c c' xs) (hsub : ys.Subperm xs) :
    Reading source c c' ys where
  place := h.place
  last_le := h.last_le
  start_le := h.start_le
  importAt p hp := h.importAt p (hsub.subset hp)
  inside p hp := h.inside p (hsub.subset hp)
  apart := by
    obtain ⟨zs, hperm, hsublist⟩ := hsub
    exact (hperm.pairwise_iff fun hpq ↦ hpq.symm).mp (h.apart.sublist hsublist)

/-- A dynamic import is all there is. -/
theorem single {p : Span × Span} (h : Reading source c c' []) (hp : ImportAt source p)
    (hinside : c.token.span.start ≤ p.1.start ∧ p.1.stop ≤ c'.lastStop) :
    Reading source c c' [p] where
  place := h.place
  last_le := h.last_le
  start_le := h.start_le
  importAt := List.forall_mem_singleton.mpr hp
  inside := List.forall_mem_singleton.mpr hinside
  apart := List.pairwise_singleton _ _

/-- Nothing is said of the imports found. -/
theorem forget (h : Reading source c c' xs) : Reading source c c' [] :=
  h.of_subperm (List.nil_subperm)

end Reading

/-! ## Rules that move on -/

/-- A rule reads from every place to a later one. -/
class Steps (source : List Char) {α : Type} (p : Reader α) : Prop where
  reading : ∀ {ctx : Context} {c c' : Cursor} {a : α}, c.At source → p ctx c = some (a, c') →
    Reading source c c' []

/-- A rule that looks around and stays where it is. -/
class Stays {α : Type} (p : Reader α) : Prop where
  stays : ∀ {ctx : Context} {c c' : Cursor} {a : α}, p ctx c = some (a, c') → c' = c

instance {α : Type} {p : Reader α} [Stays p] : Steps source p where
  reading hc hp := by
    rw [Stays.stays hp]
    exact .refl hc

section Combinators

variable {α β : Type} {p : Reader α} {f : α → Reader β}

instance (a : α) : Stays (pure a : Reader α) := ⟨fun h ↦ by cases h; rfl⟩

instance : Stays (fail : Reader α) := ⟨fun h ↦ by cases h⟩

theorem Stays.bind [Stays p] (hf : ∀ a, Stays (f a)) : Stays (p >>= f) where
  stays h := by
    obtain ⟨a, c₁, hp, hfa⟩ := exists_of_bind_eq_some h
    rw [(hf a).stays hfa, Stays.stays hp]

instance [Stays p] [∀ a, Stays (f a)] : Stays (p >>= f) := .bind inferInstance

instance (b : Prop) [Decidable b] (q : Reader α) [Stays p] [Stays q] :
    Stays (if b then p else q) where
  stays h := by
    split at h
    · exact Stays.stays h
    · exact Stays.stays h

theorem Steps.bind [hp : Steps source p] (hf : ∀ a, Steps source (f a)) :
    Steps source (p >>= f) where
  reading hc h := by
    obtain ⟨a, c₁, hp', hf'⟩ := exists_of_bind_eq_some h
    have hfirst := hp.reading hc hp'
    exact hfirst.trans ((hf a).reading hfirst.place hf')

instance [Steps source p] [∀ a, Steps source (f a)] : Steps source (p >>= f) :=
  .bind inferInstance

instance [Steps source p] (g : α → β) : Steps source (g <$> p) where
  reading hc h := by
    obtain ⟨a, c₁, hp, hf⟩ := exists_of_bind_eq_some (f := fun a ↦ pure (g a)) h
    cases hf
    exact Steps.reading hc hp

theorem Steps.ite {b : Prop} [Decidable b] {q : Reader α} (hp : Steps source p)
    (hq : Steps source q) : Steps source (if b then p else q) := by
  split
  · exact hp
  · exact hq

instance (b : Prop) [Decidable b] (q : Reader α) [Steps source p] [Steps source q] :
    Steps source (if b then p else q) :=
  .ite inferInstance inferInstance

instance [Steps source p] : Steps source (attempt p) where
  reading {ctx c c' a} hc h := by
    unfold attempt at h
    split at h
    · next hp =>
      cases h
      exact Steps.reading hc hp
    · cases h
      exact .refl hc

instance [Steps source p] (g : Context → Context) : Steps source (within g p) where
  reading hc h := Steps.reading (p := p) hc h

instance [Steps source p] : Steps source (inside p) := inferInstanceAs (Steps source (within _ p))

end Combinators

/-! ## Single tokens -/

theorem Cursor.At.next {pos : Nat} {cs : List Char} (hleft : Left source pos cs)
    (opens isFirst hasDefault : Bool) (inTypes : List Node) :
    Cursor.At source ⟨(Scanner.next opens isFirst pos cs).1, (Scanner.next opens isFirst pos cs).2,
      pos, hasDefault, inTypes⟩ where
  token := (Scanner.tokenAt_next hleft opens isFirst).1
  last := hleft.isBoundary
  last_le := (Scanner.tokenAt_next hleft opens isFirst).2
  gap := Scanner.isTrivia_next hleft opens isFirst

/-- The next token is scanned again from an offset in the last one, or at its end. -/
theorem Reading.of_next {c : Cursor} (hc : c.At source) {pos : Nat} {cs : List Char}
    (hleft : Left source pos cs) (hpos : c.token.span.start ≤ pos)
    (opens isFirst hasDefault : Bool) (inTypes : List Node) :
    Reading source c ⟨(Scanner.next opens isFirst pos cs).1,
      (Scanner.next opens isFirst pos cs).2, pos, hasDefault, inTypes⟩ [] where
  place := .next hleft opens isFirst hasDefault inTypes
  last_le := Nat.le_trans hc.last_le hpos
  start_le := Nat.le_trans hpos (Scanner.tokenAt_next hleft opens isFirst).2
  importAt := nofun
  inside := nofun
  apart := .nil

theorem Reading.advance {c : Cursor} (hc : c.At source) : Reading source c c.advance [] :=
  .of_next hc hc.token.stop hc.token.start_le_stop _ _ _ _

/-- What is noted on the way changes nothing about the place. -/
theorem Reading.note {c : Cursor} (hc : c.At source) (hasDefault : Bool) (inTypes : List Node) :
    Reading source c { c with hasDefault, inTypes } [] where
  place := ⟨hc.token, hc.last, hc.last_le, hc.gap⟩
  last_le := Nat.le_refl _
  start_le := Nat.le_refl _
  importAt := nofun
  inside := nofun
  apart := .nil

instance : Stays peek := ⟨fun h ↦ by cases h; rfl⟩

instance : Stays place := ⟨fun h ↦ by cases h; rfl⟩

instance : Stays position := ⟨fun h ↦ by cases h; rfl⟩

instance (start : Nat) : Stays (spanFrom start) := ⟨fun h ↦ by cases h; rfl⟩

instance : Stays peekSecond := ⟨fun h ↦ by cases h; rfl⟩

instance : Stays isTyped := ⟨fun h ↦ by cases h; rfl⟩

instance {α : Type} (f : Context → α) : Stays (ask f) := ⟨fun h ↦ by cases h; rfl⟩

instance : Stays (read : Reader Context) := ⟨fun h ↦ by cases h; rfl⟩

instance : Steps source skip where
  reading hc h := by
    cases h
    exact .advance hc

instance (b : Bool) : Stays (guardThat b) := by
  unfold guardThat
  infer_instance

instance : Stays typedOnly := by
  unfold typedOnly
  infer_instance

instance (s : String) : Stays (isAtMark s) := by
  unfold isAtMark
  infer_instance

instance (s : String) : Stays (isAtWord s) := by
  unfold isAtWord
  infer_instance

instance (s : String) : Steps source (takeMark s) := by
  unfold takeMark
  infer_instance

instance (s : String) : Steps source (takeWord s) := by
  unfold takeWord
  infer_instance

instance (s : String) : Steps source (mark s) := by
  unfold mark
  infer_instance

instance (s : String) : Steps source (word s) := by
  unfold word
  infer_instance

instance : Steps source name := by
  unfold name
  exact .bind fun t ↦ by split <;> infer_instance

instance : Steps source anyWord := by
  unfold anyWord
  exact .bind fun t ↦ by split <;> infer_instance

instance : Steps source stringLiteral := by
  unfold stringLiteral
  exact .bind fun t ↦ by split <;> infer_instance

instance : Steps source templateHead := by
  unfold templateHead
  exact .bind fun t ↦ by split <;> infer_instance

instance : Steps source semicolon := by
  unfold semicolon
  infer_instance

instance : Stays isAtLess := by
  unfold isAtLess
  infer_instance

instance : Stays spelling where
  stays h := by
    unfold spelling at h
    split at h
    · cases h
      rfl
    · split at h <;>
      · cases h
        rfl

/-- The end of a substitution is read from the closing brace on. -/
instance : Steps source templateTail where
  reading {ctx c c' a} hc h := by
    unfold templateTail at h
    split at h
    · split at h
      · next chunk w isLast rest hchunk =>
        cases h
        have hleft : Left source (c.token.span.stop + w) rest := by
          rcases hc.token.stop with hstop | ⟨hnil, -⟩
          · obtain ⟨v, u, delimiter, -, rfl, htext, hend⟩ := Literal.takes_chunk hchunk
            exact .inl (hstop.trans (htext.trans hend))
          · rw [hnil] at hchunk
            cases hchunk
        exact .of_next hc hleft (Nat.le_trans hc.token.start_le_stop (Nat.le_add_right _ _)) _ _ _ _
      · cases h
    · cases h

theorem steps_takeAngle {d : Char} (hd : d.utf8Size = 1) : Steps source (takeAngle d) where
  reading {ctx c c' a} hc h := by
    unfold takeAngle at h
    split at h
    · next m hkind =>
      split at h
      · next d' tail hm =>
        split at h
        · next hsame =>
          cases h
          have htakes := hc.token.mark m hkind
          rw [hm, ← hsame, List.cons_append] at htakes
          have hleft : Left source (c.token.span.start + 1) (tail ++ c.rest) :=
            .inl (htakes.trans ((Literal.Takes.nil _).cons_ascii hd))
          exact .of_next hc hleft (Nat.le_add_right _ _) _ _ _ _
        · cases h
      · cases h
    · cases h

instance : Steps source (takeAngle '<') := steps_takeAngle rfl

instance : Steps source (takeAngle '>') := steps_takeAngle rfl

theorem width_greaterSpellings : ∀ s ∈ [">>>=", ">>>", ">>=", ">>", ">="],
    s.toList = '>' :: s.toList.drop 1 ∧
      width (s.toList.drop 1) = (s.toList.drop 1).length := by decide

/-- The spellings that start with `>` go on behind the token. -/
theorem greaterSpelling_eq_some {c : Cursor} {s : String} (h : greaterSpelling c = some s) :
    c.token.kind = .mark ">" ∧ s.toList = '>' :: s.toList.drop 1 ∧ s.toList.drop 1 <+: c.rest ∧
      width (s.toList.drop 1) = (s.toList.drop 1).length := by
  unfold greaterSpelling at h
  split at h
  · next hmark =>
    have hkind : c.token.kind = .mark ">" := by
      unfold Token.isMark at hmark
      split at hmark
      · next hkind => rw [hkind, eq_of_beq hmark]
      · cases hmark
    rw [Option.some.injEq] at h
    refine ⟨hkind, ?_⟩
    rcases Option.getD_eq_iff.mp h with hfound | ⟨-, rfl⟩
    · obtain ⟨hs, hwidth⟩ := width_greaterSpellings s (List.mem_of_find?_eq_some hfound)
      have hfits : (s.toList.drop 1).isPrefixOf c.rest = true := by
        simpa using List.find?_some hfound
      exact ⟨hs, List.isPrefixOf_iff_prefix.mp hfits, hwidth⟩
    · exact ⟨rfl, List.nil_prefix, rfl⟩
  · cases h

instance (s : String) : Steps source (takeOperator s) where
  reading {ctx c c' a} hc h := by
    unfold takeOperator at h
    split at h
    · cases h
      exact .advance hc
    · next t hspelled =>
      split at h
      · next hsame =>
        cases h
        obtain ⟨hkind, hs, ⟨rest, hrest⟩, htailWidth⟩ := greaterSpelling_eq_some hspelled
        rw [hsame] at hs hrest htailWidth
        have htail : (s.toList.drop 1).length = s.length - 1 := by
          rw [List.length_drop, String.length_toList]
        have hwidth : s.length = width (s.toList.drop 1) + 1 := by
          have hlength := congrArg List.length hs
          rw [List.length_cons, String.length_toList] at hlength
          rw [htailWidth, hlength]
        have hoperator : Literal.Takes ('>' :: c.rest) s.length (c.rest.drop (s.length - 1)) := by
          rw [← htail, ← hrest, List.drop_left, hwidth]
          exact Literal.Takes.cons_ascii ⟨s.toList.drop 1, rfl, rfl⟩ rfl
        exact .of_next hc (.inl ((hc.token.mark _ hkind).trans hoperator))
          (Nat.le_add_right _ _) _ _ _ _
      · cases h

/-! ## Repetition -/

section Repetition

variable {α : Type}

/-- What every step keeps holds in the end. -/
theorem grow_induction (Inv : α → Cursor → Prop) {step : α → Reader (Option α)} {ctx : Context}
    (hstep : ∀ a c o c', Inv a c → step a ctx c = some (o, c') → Inv (o.getD a) c') {n : Nat}
    {a b : α} {c c' : Cursor} (ha : Inv a c) (h : grow step n a ctx c = some (b, c')) :
    Inv b c' := by
  induction n generalizing a c with
  | zero => cases h
  | succ n ih =>
    rw [grow] at h
    obtain ⟨o, c₁, ho, h⟩ := exists_of_bind_eq_some h
    have hnext := hstep a c o c₁ ha ho
    cases o with
    | none =>
      cases h
      exact hnext
    | some d => exact ih hnext h

theorem steps_grow {step : α → Reader (Option α)} (hstep : ∀ a, Steps source (step a)) (n : Nat)
    (a : α) : Steps source (grow step n a) where
  reading {_ c _ _} hc h :=
    grow_induction (fun _ c₁ ↦ Reading source c c₁ [])
      (fun a _ _ _ hread ho ↦ hread.trans ((hstep a).reading hread.place ho)) (.refl hc) h

theorem Steps.repeats {a : α} {step : α → Reader (Option α)} (hstep : ∀ a, Steps source (step a)) :
    Steps source (repeatFrom a step) where
  reading {ctx _ _ _} hc h := (steps_grow hstep ctx.size a).reading hc h

instance {a : α} {step : α → Reader (Option α)} [∀ a, Steps source (step a)] :
    Steps source (repeatFrom a step) :=
  .repeats inferInstance

instance {isEnd : Token → Bool} {element : Reader α} [Steps source element] :
    Steps source (readUntil isEnd element) := by
  unfold readUntil
  infer_instance

instance {close : String} {element : Reader α} [Steps source element] :
    Steps source (listUpTo close element) := by
  unfold listUpTo
  infer_instance

instance {element : Reader α} [Steps source element] : Steps source (commaSeparated element) := by
  unfold commaSeparated
  infer_instance

end Repetition

end Downlevel.Script.Grammar
