import Downlevel.Proofs.Script.Children
import Downlevel.Typed.Plain
import Mathlib.Data.List.Induction

/-!
# What the gates find

The gates look for fields and decorators with one walk over the script and what stands within its
types. The walk goes inside of every node, also of the fields and decorators it looks for, so they
are found at any depth: what a gate refuses is said here by a relation between nodes and trees and
not by a walk. Which gate speaks is decided by the passes, of which the last one of a kind counts,
and by the order of the gates.
-/

namespace Downlevel.Typed

open Script

variable {kind : Node → Bool} {m : Module} {g : Gates} {source : List Char}

/-! ## Nodes at any depth -/

/-- A script has a node of a kind, at any depth of its statements or within its types. -/
def HasNode (kind : Node → Bool) (m : Module) : Prop :=
  ∃ n, kind n = true ∧ ∃ t ∈ m.items ++ m.inTypes, n.StandsIn t

theorem any_allNodes_iff : (allNodes m).any kind = true ↔ HasNode kind m := by
  rw [List.any_eq_true]
  exact exists_congr fun n ↦ and_comm.trans (and_congr_right fun _ ↦ Node.mem_nodes_iff)

/-- An expression in a part of a class: the initial value of a field, a key in brackets, in the body
of a method, or an argument of a decorator. -/
inductive InClassPart (e : Node) : Node → Prop where
  | initial {ds : List Node} {modifiers : FieldModifiers} {key : Node} :
    InClassPart e (.field ds modifiers key (some e))
  | fieldKey {ds : List Node} {modifiers : FieldModifiers} {value : Option Node} :
    InClassPart e (.field ds modifiers (.computed e) value)
  | methodKey {ds : List Node} {isStatic isAbstract : Bool} {kind : MethodKind} {f : Node} :
    InClassPart e (.method ds isStatic isAbstract kind (.computed e) f)
  | methodBody {ds ps items : List Node} {isStatic isAbstract isAsync isGenerator : Bool}
    {kind : MethodKind} {key t : Node} {name : Option String} {closing : List Comment}
    (ht : t ∈ items) (h : e.StandsIn t) :
    InClassPart e (.method ds isStatic isAbstract kind key
      (.function name isAsync isGenerator ps (some (.functionBody items closing))))
  | decoratorArgument {span : Span} {f : Node} {arguments : List Node} {isOptional isPure : Bool}
    (h : e ∈ arguments) : InClassPart e (.decorator span (.call f arguments isOptional isPure))

theorem InClassPart.standsIn {e part : Node} (h : InClassPart e part) : e.StandsIn part := by
  have hkey : e.StandsIn (.computed e) := .inside List.mem_cons_self .root
  cases h with
  | initial =>
    exact .inside (List.mem_append_right _ (List.mem_cons_of_mem _ List.mem_cons_self)) .root
  | fieldKey => exact .inside (List.mem_append_right _ List.mem_cons_self) hkey
  | methodKey => exact .inside (List.mem_append_right _ List.mem_cons_self) hkey
  | @methodBody ds ps items _ _ _ _ _ _ _ _ closing ht h =>
    have hbody : e.StandsIn (.functionBody items closing) := .inside ht h
    exact .inside (List.mem_append_right _ (List.mem_cons_of_mem _ List.mem_cons_self))
      (.inside (List.mem_append_right _ List.mem_cons_self) hbody)
  | decoratorArgument h =>
    exact .inside List.mem_cons_self (.inside (List.mem_cons_of_mem _ h) .root)

/-! ## What the passes accept -/

section Passes

variable {passes : List Pass} {b : Bool}

/-- The last pass of a kind has a setting. -/
def IsLast (kind : Bool → Pass) (b : Bool) (passes : List Pass) : Prop :=
  ∃ front back, passes = front ++ kind b :: back ∧ ∀ other, kind other ∉ back

theorem isLast_concat_iff {kind : Bool → Pass} {p : Pass} :
    IsLast kind b (passes ++ [p])
      ↔ p = kind b ∨ (∀ other, p ≠ kind other) ∧ IsLast kind b passes := by
  constructor
  · rintro ⟨front, back, h, hback⟩
    rcases List.eq_nil_or_concat back with rfl | ⟨back, q, rfl⟩
    · exact .inl (List.singleton_inj.mp (List.append_inj_right' h rfl))
    · rw [List.concat_eq_append] at h hback
      rw [← List.cons_append, ← List.append_assoc] at h
      obtain ⟨rfl, hq⟩ := List.append_inj' h rfl
      obtain rfl := List.singleton_inj.mp hq
      refine .inr ⟨fun other hp ↦ hback other ?_, front, back, rfl, fun other hmem ↦ hback other ?_⟩
      · simp [hp]
      · simp [hmem]
  · rintro (rfl | ⟨hp, front, back, rfl, hback⟩)
    · exact ⟨passes, [], rfl, fun _ ↦ List.not_mem_nil⟩
    · refine ⟨front, back ++ [p], by simp, fun other hmem ↦ ?_⟩
      rcases List.mem_append.mp hmem with hmem | hmem
      · exact hback other hmem
      · exact hp other (List.mem_singleton.mp hmem).symm

theorem ofPasses_concat (passes : List Pass) (p : Pass) :
    Gates.ofPasses (passes ++ [p]) = (Gates.ofPasses passes).opened p := by
  rw [Gates.ofPasses, List.foldl_append]
  rfl

theorem classFields_ofPasses_iff :
    (Gates.ofPasses passes).classFields = true ↔ .classProperties ∈ passes := by
  induction passes using List.reverseRecOn with
  | nil => simp [Gates.ofPasses, Gates.closed]
  | append_singleton passes p ih => cases p <;> simp [ofPasses_concat, Gates.opened, ih]

theorem decoratorsFirst_ofPasses_eq_none_iff :
    (Gates.ofPasses passes).decoratorsFirst = none ↔ ∀ first, .decorators first ∉ passes := by
  induction passes using List.reverseRecOn with
  | nil => simp [Gates.ofPasses, Gates.closed]
  | append_singleton passes p ih =>
    rw [ofPasses_concat]
    cases p with
    | decorators first =>
      refine iff_of_false (fun h ↦ by cases h) fun h ↦ h first ?_
      exact List.mem_append_right _ List.mem_cons_self
    | _ => simp [Gates.opened, ih]

/-- The last pass for types decides whether fields may be only declared. -/
theorem refusesDeclared_ofPasses_iff :
    (Gates.ofPasses passes).types = true ∧ (Gates.ofPasses passes).declaredFields = false
      ↔ IsLast .typescript false passes := by
  induction passes using List.reverseRecOn with
  | nil => simp [Gates.ofPasses, Gates.closed, IsLast]
  | append_singleton passes p ih =>
    rw [isLast_concat_iff, ← ih, ofPasses_concat]
    cases p <;> simp [Gates.opened]

end Passes

/-! ## Which gate speaks -/

/-- A script has fields that the gates do not let through. -/
def Gates.RefusesFields (g : Gates) (m : Module) : Prop :=
  g.classFields = false ∧ HasNode isClassField m

/-- A script has fields that are only declared and that the gates do not let through. -/
def Gates.RefusesDeclared (g : Gates) (m : Module) : Prop :=
  (g.types = true ∧ g.declaredFields = false) ∧ HasNode isDeclaredField m

/-- A script has decorators that the gates do not let through. -/
def Gates.RefusesDecorators (g : Gates) (m : Module) : Prop :=
  g.decoratorsFirst = none ∧ HasNode isDecorator m

theorem refusesFields_iff :
    (!g.classFields && (allNodes m).any isClassField) = true ↔ g.RefusesFields m := by
  rw [Bool.and_eq_true, Bool.not_eq_true', any_allNodes_iff, Gates.RefusesFields]

theorem refusesDeclared_iff :
    (g.types && !g.declaredFields && (allNodes m).any isDeclaredField) = true
      ↔ g.RefusesDeclared m := by
  rw [Bool.and_eq_true, Bool.and_eq_true, Bool.not_eq_true', any_allNodes_iff,
    Gates.RefusesDeclared]

/-- The gates are asked in their order, and a script that none of them refuses for what it has can
only be refused for where something stands. -/
theorem check_cases (g : Gates) (source : List Char) (m : Module) :
    g.RefusesFields m ∧ g.check source m = .error .classFields ∨
    (¬g.RefusesFields m ∧ g.RefusesDeclared m) ∧ g.check source m = .error .declaredFields ∨
    (¬g.RefusesFields m ∧ ¬g.RefusesDeclared m ∧ g.RefusesDecorators m) ∧
      g.check source m = .error .decorators ∨
    (¬g.RefusesFields m ∧ ¬g.RefusesDeclared m ∧ ¬g.RefusesDecorators m) ∧
      (g.check source m = .ok () ∨
        ∃ first, g.check source m = .error (.decoratorPlacement first)) := by
  unfold Gates.check
  dsimp only
  rw [← refusesFields_iff, ← refusesDeclared_iff]
  split
  · next hfields => exact .inl ⟨hfields, rfl⟩
  · next hfields =>
    refine .inr ?_
    split
    · next hdeclared => exact .inl ⟨⟨hfields, hdeclared⟩, rfl⟩
    · next hdeclared =>
      refine .inr ?_
      rw [Gates.RefusesDecorators, ← any_allNodes_iff]
      split
      · next hnone =>
        split
        · next hany => exact .inl ⟨⟨hfields, hdeclared, hnone, hany⟩, rfl⟩
        · next hany =>
          exact .inr ⟨⟨hfields, hdeclared, fun h ↦ hany h.2⟩, .inl rfl⟩
      · next first hsome =>
        refine .inr ⟨⟨hfields, hdeclared, fun h ↦ by rw [hsome] at h; cases h.1⟩, ?_⟩
        split
        · exact .inr ⟨first, rfl⟩
        · exact .inl rfl

/-- A problem is known by its wording. -/
theorem eq_of_message? {p q : TypedProblem} (hp : p.message?.isSome = true)
    (h : p.message? = q.message?) : p = q := by
  cases p <;> cases q <;> revert hp h <;> decide +revert

theorem exists_message?_iff {result : Except TypedProblem Unit} {p : TypedProblem} {text : String}
    (hp : p.message? = some text) :
    (∃ problem, result = .error problem ∧ problem.message? = some text) ↔ result = .error p := by
  constructor
  · rintro ⟨problem, rfl, htext⟩
    rw [eq_of_message? (by rw [htext]; rfl) (htext.trans hp.symm)]
  · exact fun h ↦ ⟨p, h, hp⟩

/-- **Gates.** Fields of classes are refused exactly if no pass accepts them and a field that is not
only declared stands somewhere in the script, at any depth; fields that are only declared exactly if
nothing was refused before, the last pass for types does not accept them, and there is one at any
depth; decorators exactly if nothing was refused before, there is no pass for decorators, and there
is one at any depth. What stands in an initial value, in a key in brackets, in the body of a method
or in an argument of a decorator stands in every tree around it. -/
theorem check_failsWith (passes : List Pass) (source : List Char) (m : Module) :
    let fails (text : String) : Prop := ∃ problem,
      (Gates.ofPasses passes).check source m = .error problem ∧ problem.message? = some text
    let fields : Prop := .classProperties ∉ passes ∧ HasNode isClassField m
    let declared : Prop := IsLast .typescript false passes ∧ HasNode isDeclaredField m
    let decorators : Prop := (∀ first, .decorators first ∉ passes) ∧ HasNode isDecorator m
    (fails "Class fields are not enabled." ↔ fields) ∧
    (fails "The 'declare' modifier is only allowed when allowDeclareFields is enabled."
      ↔ ¬fields ∧ declared) ∧
    (fails "Decorators are not enabled." ↔ ¬fields ∧ ¬declared ∧ decorators) ∧
    ∀ {e part t n : Node}, InClassPart e part → part.StandsIn t → n.StandsIn e → n.StandsIn t := by
  intro fails fields declared decorators
  have hfields : (Gates.ofPasses passes).RefusesFields m ↔ fields := by
    rw [Gates.RefusesFields, ← Bool.not_eq_true, classFields_ofPasses_iff]
  have hdeclared : (Gates.ofPasses passes).RefusesDeclared m ↔ declared := by
    rw [Gates.RefusesDeclared, refusesDeclared_ofPasses_iff]
  have hdecorators : (Gates.ofPasses passes).RefusesDecorators m ↔ decorators := by
    rw [Gates.RefusesDecorators, decoratorsFirst_ofPasses_eq_none_iff]
  have hcases := check_cases (Gates.ofPasses passes) source m
  rw [hfields, hdeclared, hdecorators] at hcases
  refine ⟨(exists_message?_iff (p := .classFields) rfl).trans ?_,
    (exists_message?_iff (p := .declaredFields) rfl).trans ?_,
    (exists_message?_iff (p := .decorators) rfl).trans ?_,
    fun hpart ht hn ↦ (hn.trans hpart.standsIn).trans ht⟩
  all_goals
    rcases hcases with ⟨h, hcheck⟩ | ⟨h, hcheck⟩ | ⟨h, hcheck⟩ | ⟨h, hcheck | ⟨first, hcheck⟩⟩ <;>
    simp [hcheck, h]

/-- A field in a key of a method, in a class that is an argument of a decorator. -/
example : toPlain ⟨.off, [.decorators true]⟩ "a.js"
    "@d(class { [class { x = 1 }.k]() {} })\nclass A {}\n"
      = .error (.typed "a.js" .classFields) := by decide +kernel

/-- A decorator within a type. -/
example : toPlain ⟨.off, [.classProperties, .typescript true]⟩ "a.ts"
    "interface A { [class { @d x }.k]: string }\n"
      = .error (.typed "a.ts" .decorators) := by decide +kernel

end Downlevel.Typed
