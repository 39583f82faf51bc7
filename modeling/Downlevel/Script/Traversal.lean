import Downlevel.Script.Tree

/-!
# Walking a tree

One walk serves every question that looks into a whole tree: it lists the nodes from the outside to
the inside, each with what is known where it stands. A rule decides at every node what is known
inside it, and whether the walk goes inside at all.
-/

namespace Downlevel.Script.Node

variable {ε : Type}

mutual

/-- The nodes of a tree that a walk reaches, parents before children, each with what is known where
it stands. `enter` gives what is known inside a node, or nothing if the walk does not go inside. -/
def visit (enter : ε → Node → Option ε) (e : ε) (n : Node) : List (ε × Node) :=
  match enter e n with
  | none => [(e, n)]
  | some i =>
    (e, n) ::
    match n with
    | computed a => visit enter i a
    | template _ as => visitList enter i as
    | taggedTemplate a b => visit enter i a ++ visit enter i b
    | array as => visitList enter i as
    | spread a => visit enter i a
    | object as => visitList enter i as
    | property a b => visit enter i a ++ visit enter i b
    | shorthand _ a => visitOption enter i a
    | function _ _ _ as b => visitList enter i as ++ visitOption enter i b
    | arrow _ as b => visitList enter i as ++ visit enter i b
    | parameter as _ b => visitList enter i as ++ visit enter i b
    | functionBody as _ => visitList enter i as
    | classDef as _ b cs => visitList enter i as ++ visitOption enter i b ++ visitList enter i cs
    | decorator _ a => visit enter i a
    | method as _ _ _ b c => visitList enter i as ++ visit enter i b ++ visit enter i c
    | field as _ b c => visitList enter i as ++ visit enter i b ++ visitOption enter i c
    | staticBlock as => visitList enter i as
    | unary _ a => visit enter i a
    | update _ _ a => visit enter i a
    | binary _ a b => visit enter i a ++ visit enter i b
    | privateIn _ a => visit enter i a
    | assignment _ a b => visit enter i a ++ visit enter i b
    | conditional a b c => visit enter i a ++ visit enter i b ++ visit enter i c
    | sequence as => visitList enter i as
    | parenthesized a => visit enter i a
    | member a _ _ => visit enter i a
    | privateMember a _ _ => visit enter i a
    | index a b _ => visit enter i a ++ visit enter i b
    | call a bs _ _ => visit enter i a ++ visitList enter i bs
    | construct a bs _ => visit enter i a ++ visitList enter i bs
    | chain a => visit enter i a
    | yieldExpression _ a => visitOption enter i a
    | awaitExpression a => visit enter i a
    | importCall _ _ a b => visit enter i a ++ visitOption enter i b
    | item _ _ a => visit enter i a
    | expressionStatement a => visit enter i a
    | variableDeclaration _ as => visitList enter i as
    | declarator a b => visit enter i a ++ visitOption enter i b
    | functionDeclaration a => visit enter i a
    | classDeclaration a => visit enter i a
    | block as => visitList enter i as
    | ifStatement a b c => visit enter i a ++ visit enter i b ++ visitOption enter i c
    | forStatement a b c d =>
      visitOption enter i a ++ visitOption enter i b ++ visitOption enter i c ++ visit enter i d
    | forIn a b c => visit enter i a ++ visit enter i b ++ visit enter i c
    | forOf _ a b c => visit enter i a ++ visit enter i b ++ visit enter i c
    | whileStatement a b => visit enter i a ++ visit enter i b
    | doWhile a b => visit enter i a ++ visit enter i b
    | withStatement a b => visit enter i a ++ visit enter i b
    | returnStatement a => visitOption enter i a
    | throwStatement a => visit enter i a
    | labeled _ a => visit enter i a
    | tryStatement a b c => visit enter i a ++ visitOption enter i b ++ visitOption enter i c
    | catchClause a b => visitOption enter i a ++ visit enter i b
    | switchStatement a bs => visit enter i a ++ visitList enter i bs
    | switchCase a bs => visitOption enter i a ++ visitList enter i bs
    | exportDeclaration _ a => visit enter i a
    | exportDefault _ a => visit enter i a
    | ambient a => visit enter i a
    | ambientModule as => visitList enter i as
    | enumDeclaration _ as => visitList enter i as
    | enumMember _ a => visitOption enter i a
    | namespaceDeclaration _ as => visitList enter i as
    | importEquals _ _ a => visit enter i a
    | exportAssignment a => visit enter i a
    | _ => []

/-- The nodes that a walk reaches in several trees. -/
def visitList (enter : ε → Node → Option ε) (e : ε) : List Node → List (ε × Node)
  | [] => []
  | n :: ns => visit enter e n ++ visitList enter e ns

/-- The nodes that a walk reaches in a tree that may be missing. -/
def visitOption (enter : ε → Node → Option ε) (e : ε) : Option Node → List (ε × Node)
  | none => []
  | some n => visit enter e n

end

/-- All nodes of several trees. -/
def nodes (ns : List Node) : List Node := (visitList (fun _ _ ↦ some ()) () ns).map (·.2)

/-- The nodes of several trees, without those inside a node of a kind. -/
def outermost (stops : Node → Bool) (ns : List Node) : List Node :=
  (visitList (fun _ n ↦ if stops n then none else some ()) () ns).map (·.2)

end Downlevel.Script.Node
