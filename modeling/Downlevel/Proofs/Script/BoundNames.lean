import Downlevel.Script.Binding

/-!
# What patterns bind

Which nodes are binding patterns, and which names they bind, by the rules of the language. The
function that collects bound names is right on all of them: it looks into every kind of pattern that
can bind something.
-/

namespace Downlevel.Script

mutual

/-- A pattern, a part of one or a variable with its value binds names, in the order in which they
are written. -/
inductive Binds : Node → List String → Prop where
  | name (n : String) : Binds (.identifier n) [n]
  | array {es : List Node} {ns : List String} (h : BindsAll es ns) : Binds (.array es) ns
  | object {ps : List Node} {ns : List String} (h : BindsAll ps ns) : Binds (.object ps) ns
  | elision : Binds .hole []
  | rest {p : Node} {ns : List String} (h : Binds p ns) : Binds (.spread p) ns
  | property (key : Node) {p : Node} {ns : List String} (h : Binds p ns) :
    Binds (.property key p) ns
  | shorthand (n : String) (initial : Option Node) : Binds (.shorthand n initial) [n]
  | withDefault {p : Node} {ns : List String} (h : Binds p ns) (value : Node) :
    Binds (.assignment .plain p value) ns
  | declarator {p : Node} {ns : List String} (h : Binds p ns) (initial : Option Node) :
    Binds (.declarator p initial) ns

/-- Patterns in a row bind the names of each. -/
inductive BindsAll : List Node → List String → Prop where
  | nil : BindsAll [] []
  | cons {p : Node} {ps : List Node} {ns ms : List String} (h : Binds p ns) (hs : BindsAll ps ms) :
    BindsAll (p :: ps) (ns ++ ms)

end

/-- A declaration declares names, in the order in which they are written. -/
inductive Declares : Node → List String → Prop where
  | variables (kind : VariableKind) {ds : List Node} {ns : List String} (h : BindsAll ds ns) :
    Declares (.variableDeclaration kind ds) ns
  | function (n : String) (isAsync isGenerator : Bool) (ps : List Node) (body : Option Node) :
    Declares (.functionDeclaration (.function (some n) isAsync isGenerator ps body)) [n]
  | classDef (ds : List Node) (n : String) (heritage : Option Node) (members : List Node) :
    Declares (.classDeclaration (.classDef ds (some n) heritage members)) [n]

/-! ## The names that are collected -/

mutual

theorem Binds.boundNames_eq {p : Node} {ns : List String} (h : Binds p ns) : p.boundNames = ns := by
  cases h with
  | name n => rfl
  | array h => exact h.boundNamesOfList_eq
  | object h => exact h.boundNamesOfList_eq
  | elision => rfl
  | rest h => exact h.boundNames_eq
  | property key h => exact h.boundNames_eq
  | shorthand n initial => rfl
  | withDefault h value => exact h.boundNames_eq
  | declarator h initial => exact h.boundNames_eq

theorem BindsAll.boundNamesOfList_eq {ps : List Node} {ns : List String} (h : BindsAll ps ns) :
    Node.boundNamesOfList ps = ns := by
  cases h with
  | nil => rfl
  | cons h hs => rw [Node.boundNamesOfList, h.boundNames_eq, hs.boundNamesOfList_eq]

end

theorem bindsAll_of_forall {ps : List Node} (h : ∀ p ∈ ps, ∃ ns, Binds p ns) :
    ∃ ns, BindsAll ps ns := by
  induction ps with
  | nil => exact ⟨[], .nil⟩
  | cons p ps ih =>
    obtain ⟨ns, hp⟩ := h p List.mem_cons_self
    obtain ⟨ms, hps⟩ := ih fun q hq ↦ h q (List.mem_cons_of_mem p hq)
    exact ⟨ns ++ ms, .cons hp hps⟩

theorem Declares.declaredNames_eq {d : Node} {ns : List String} (h : Declares d ns) :
    d.declaredNames = ns := by
  match h with
  | .variables kind h => exact h.boundNamesOfList_eq
  | .function .. => rfl
  | .classDef .. => rfl

end Downlevel.Script
