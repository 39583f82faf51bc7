import Downlevel.Script.Traversal
import Mathlib.Data.List.Basic

/-!
# Nodes below nodes

A walk lists a node and then, if it goes inside, what it finds in the nodes right below it. So
everything about walks follows from one list, that of the nodes right below a node. A walk that
stays out of some nodes lists a part of what a full walk lists, and it misses what is inside of
them. A full walk misses nothing: it comes to the nodes that stand in a tree at any depth.
-/

namespace Downlevel.Script.Node

variable {ε : Type}

/-- The nodes right below a node, in the order in which a walk comes to them. -/
def children : Node → List Node
  | computed a => [a]
  | template _ as => as
  | taggedTemplate a b => [a, b]
  | array as => as
  | spread a => [a]
  | object as => as
  | property a b => [a, b]
  | shorthand _ a => a.toList
  | function _ _ _ as b => as ++ b.toList
  | arrow _ as b => as ++ [b]
  | parameter as _ b => as ++ [b]
  | functionBody as _ => as
  | classDef as _ b cs => as ++ b.toList ++ cs
  | decorator _ a => [a]
  | method as _ _ _ b c => as ++ [b, c]
  | field as _ b c => as ++ (b :: c.toList)
  | staticBlock as => as
  | unary _ a => [a]
  | update _ _ a => [a]
  | binary _ a b => [a, b]
  | privateIn _ a => [a]
  | assignment _ a b => [a, b]
  | conditional a b c => [a, b, c]
  | sequence as => as
  | parenthesized a => [a]
  | member a _ _ => [a]
  | privateMember a _ _ => [a]
  | index a b _ => [a, b]
  | call a bs _ _ => a :: bs
  | construct a bs _ => a :: bs
  | chain a => [a]
  | yieldExpression _ a => a.toList
  | awaitExpression a => [a]
  | importCall _ _ a b => a :: b.toList
  | item _ _ a => [a]
  | expressionStatement a => [a]
  | variableDeclaration _ as => as
  | declarator a b => a :: b.toList
  | functionDeclaration a => [a]
  | classDeclaration a => [a]
  | block as => as
  | ifStatement a b c => a :: b :: c.toList
  | forStatement a b c d => a.toList ++ b.toList ++ c.toList ++ [d]
  | forIn a b c => [a, b, c]
  | forOf _ a b c => [a, b, c]
  | whileStatement a b => [a, b]
  | doWhile a b => [a, b]
  | withStatement a b => [a, b]
  | returnStatement a => a.toList
  | throwStatement a => [a]
  | labeled _ a => [a]
  | tryStatement a b c => a :: b.toList ++ c.toList
  | catchClause a b => a.toList ++ [b]
  | switchStatement a bs => a :: bs
  | switchCase a bs => a.toList ++ bs
  | exportDeclaration _ a => [a]
  | exportDefault _ a => [a]
  | ambient a => [a]
  | ambientModule as => as
  | enumDeclaration _ as => as
  | enumMember _ a => a.toList
  | namespaceDeclaration _ as => as
  | importEquals _ _ a => [a]
  | exportAssignment a => [a]
  | _ => []

/-! ## Walks -/

theorem visitList_append (enter : ε → Node → Option ε) (e : ε) (as bs : List Node) :
    visitList enter e (as ++ bs) = visitList enter e as ++ visitList enter e bs := by
  induction as with
  | nil => rfl
  | cons a as ih => rw [List.cons_append, visitList, visitList, ih, List.append_assoc]

theorem visitOption_eq (enter : ε → Node → Option ε) (e : ε) (o : Option Node) :
    visitOption enter e o = visitList enter e o.toList := by
  cases o with
  | none => rfl
  | some n => exact (List.append_nil _).symm

theorem visitList_eq_flatMap (enter : ε → Node → Option ε) (e : ε) (ns : List Node) :
    visitList enter e ns = ns.flatMap (visit enter e) := by
  induction ns with
  | nil => rfl
  | cons n ns ih => rw [visitList, ih, List.flatMap_cons]

/-- A walk lists a node, and what it finds right below the node if it goes inside. -/
theorem visit_eq (enter : ε → Node → Option ε) (e : ε) (n : Node) :
    visit enter e n
      = (e, n) :: ((enter e n).map fun i ↦ visitList enter i n.children).getD [] := by
  unfold visit
  cases enter e n with
  | none => rfl
  | some i =>
    cases n <;> simp only [children, visitList, visitList_append, visitOption_eq, List.append_nil,
      List.append_assoc, Option.map_some, Option.getD_some]

theorem sizeOf_lt_of_mem_children {n k : Node} (h : k ∈ n.children) : sizeOf k < sizeOf n := by
  have hlist : ∀ ks : List Node, k ∈ ks → sizeOf k < sizeOf ks := fun _ hk ↦
    List.sizeOf_lt_of_mem hk
  have hoption : ∀ o : Option Node, k ∈ o → sizeOf k < sizeOf o := by
    rintro _ rfl
    simp
  cases n <;> simp only [children, List.mem_append, List.mem_cons, List.not_mem_nil, or_false,
    Option.mem_toList] at h <;> grind

/-- What holds of a node if it holds of the nodes right below it holds of all nodes. -/
theorem induction_children {P : Node → Prop} (h : ∀ n, (∀ k ∈ n.children, P k) → P n) (n : Node) :
    P n :=
  h n fun k _ ↦ induction_children h k
termination_by sizeOf n
decreasing_by exact sizeOf_lt_of_mem_children ‹_›

/-! ## Full walks and partial ones -/

variable {stops : Node → Bool}

theorem nodes_eq (ns : List Node) : nodes ns = ns.flatMap fun n ↦ n :: nodes n.children := by
  rw [nodes, visitList_eq_flatMap, List.map_flatMap]
  refine List.flatMap_congr fun n _ ↦ ?_
  rw [visit_eq]
  rfl

theorem outermost_eq (stops : Node → Bool) (ns : List Node) :
    outermost stops ns
      = ns.flatMap fun n ↦ n :: if stops n then [] else outermost stops n.children := by
  rw [outermost, visitList_eq_flatMap, List.map_flatMap]
  refine List.flatMap_congr fun n _ ↦ ?_
  rw [visit_eq]
  cases stops n <;> rfl

/-- A full walk comes to the nodes of a partial one, and behind each node that this one stays out of
to what is inside of it. -/
theorem nodes_eq_flatMap_outermost (stops : Node → Bool) (ns : List Node) :
    nodes ns
      = (outermost stops ns).flatMap fun n ↦ n :: if stops n then nodes n.children else [] := by
  have hsingle : ∀ n, n :: nodes n.children
      = (n :: if stops n then [] else outermost stops n.children).flatMap fun k ↦
          k :: if stops k then nodes k.children else [] := by
    intro n
    induction n using induction_children with
    | h n ih =>
      rw [List.flatMap_cons]
      cases hstops : stops n with
      | true => simp
      | false =>
        have hbelow : nodes n.children = (outermost stops n.children).flatMap fun k ↦
            k :: if stops k then nodes k.children else [] := by
          rw [nodes_eq, outermost_eq, List.flatMap_assoc]
          exact List.flatMap_congr fun k hk ↦ ih k hk
        simp [hbelow]
  rw [nodes_eq, outermost_eq, List.flatMap_assoc]
  exact List.flatMap_congr fun n _ ↦ hsingle n

/-! ## Depth -/

/-- A node stands in a tree, at any depth: it is the root, or it stands in a tree right below the
root. -/
inductive StandsIn (n : Node) : Node → Prop where
  | root : StandsIn n n
  | inside {t k : Node} (hk : k ∈ t.children) (h : StandsIn n k) : StandsIn n t

theorem StandsIn.trans {n k t : Node} (h : n.StandsIn k) (hk : k.StandsIn t) : n.StandsIn t := by
  induction hk with
  | root => exact h
  | inside hmem _ ih => exact .inside hmem ih

theorem mem_nodes {n : Node} {ts : List Node} :
    n ∈ nodes ts ↔ ∃ t ∈ ts, n = t ∨ n ∈ nodes t.children := by
  rw [nodes_eq, List.mem_flatMap]
  exact exists_congr fun t ↦ and_congr_right fun _ ↦ List.mem_cons

theorem standsIn_iff {n t : Node} : n.StandsIn t ↔ n = t ∨ n ∈ nodes t.children := by
  constructor
  · intro h
    induction h with
    | root => exact .inl rfl
    | inside hk _ ih => exact .inr (mem_nodes.mpr ⟨_, hk, ih⟩)
  · induction t using induction_children with
    | h t ih =>
      rintro (rfl | h)
      · exact .root
      · obtain ⟨k, hk, hn⟩ := mem_nodes.mp h
        exact .inside hk (ih k hk hn)

/-- A full walk comes to exactly the nodes that stand in one of the trees. -/
theorem mem_nodes_iff {n : Node} {ts : List Node} : n ∈ nodes ts ↔ ∃ t ∈ ts, n.StandsIn t := by
  rw [mem_nodes]
  exact exists_congr fun t ↦ and_congr_right fun _ ↦ standsIn_iff.symm

end Downlevel.Script.Node
