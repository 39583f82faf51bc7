import Downlevel.Proofs.Script.Grammar.Shape

/-!
# Names and literals of a script

The names and literals in a tree are spelled out in the text that it is read from: every name
consists of characters of names, and every literal stands on whole characters between the place
where reading starts and the one where it ends. As for dynamic imports, this is kept by everything
rules are put together from; but nothing has to be counted here, so parts may go into what a rule
makes any number of times.

Only scripts without types are followed.
-/

namespace Downlevel.Script

open Text

/-! ## Literals of a tree -/

/-- The literal in a name under which something is exported. -/
def ExportName.literals : ExportName → List StringLiteral
  | .name _ => []
  | .string s => [s]

/-- The literals in a list of attributes. -/
def attributeLiterals (attributes : Option (List ImportAttribute)) : List StringLiteral :=
  (attributes.getD []).flatMap fun a ↦ a.key.literals ++ [a.value]

/-- The literals in what an import binds. -/
def ImportSpecifier.literals : ImportSpecifier → List StringLiteral
  | .named imported _ _ => imported.literals
  | _ => []

/-- The literals in an import declaration. -/
def ImportDeclaration.literals (i : ImportDeclaration) : List StringLiteral :=
  (i.specifiers.getD []).flatMap ImportSpecifier.literals
    ++ i.source :: attributeLiterals i.attributes

/-- The literals in a list of exports. -/
def ExportList.literals (l : ExportList) : List StringLiteral :=
  (l.specifiers.flatMap fun s ↦ s.source.literals ++ s.exported.literals)
    ++ l.source.toList ++ attributeLiterals l.attributes

/-- The literals in an export of everything. -/
def ExportAll.literals (a : ExportAll) : List StringLiteral :=
  a.exported.toList.flatMap ExportName.literals ++ a.source :: attributeLiterals a.attributes

/-- Where the string literals and the chunks of templates stand that belong to a node itself, without
those inside it. A directive is a string that starts its statement. -/
def Node.ownLiterals : Node → List Span
  | .string s => [s.span]
  | .template chunks _ => chunks.map TemplateChunk.span
  | .item span _ (.directive raw) => [⟨span.start, span.start + (width raw.toList + 2)⟩]
  | .importDeclaration i => i.literals.map StringLiteral.span
  | .exportList l => l.literals.map StringLiteral.span
  | .exportAll a => a.literals.map StringLiteral.span
  | _ => []

/-- Where the string literals and the chunks of templates in several trees stand. -/
def literalsIn (ns : List Node) : List Span := (Node.nodes ns).flatMap Node.ownLiterals

namespace Grammar

/-! ## What is spelled out -/

/-- A name, or the place of a literal. -/
inductive Spelling where
  | name (name : String)
  | literal (span : Span)

/-- The names that a value binds or refers to, and the literals in it. -/
class HasSpellings (α : Type) where
  spellings : α → List Spelling

export HasSpellings (spellings)

/-- Most values have neither. -/
instance (priority := low) HasSpellings.leaf {α : Type} : HasSpellings α := ⟨fun _ ↦ []⟩

@[simp] theorem spellings_leaf {α : Type} (a : α) : HasSpellings.leaf.spellings a = [] := rfl

instance : HasSpellings String := ⟨fun n ↦ [.name n]⟩

instance : HasSpellings StringLiteral := ⟨fun s ↦ [.literal s.span]⟩

instance : HasSpellings TemplateChunk := ⟨fun ch ↦ [.literal ch.span]⟩

instance : HasSpellings ExportName where
  spellings
    | .name n => [.name n]
    | .string s => [.literal s.span]

/-- What literals spell out. -/
def literalSpellings (ss : List StringLiteral) : List Spelling := ss.map fun s ↦ .literal s.span

instance : HasSpellings ImportAttribute :=
  ⟨fun a ↦ literalSpellings (a.key.literals ++ [a.value])⟩

instance : HasSpellings ImportSpecifier :=
  ⟨fun s ↦ .name s.localName :: literalSpellings s.literals⟩

instance : HasSpellings ExportSpecifier := ⟨fun s ↦ spellings s.source ++ spellings s.exported⟩

/-- What a node itself spells out, without what is inside it. -/
def ownSpellings (n : Node) : List Spelling :=
  n.ownNames.map .name ++ n.ownLiterals.map .literal

instance : HasSpellings Node := ⟨fun n ↦ (Node.nodes [n]).flatMap ownSpellings⟩

section Instances

variable {α β : Type} [HasSpellings α] [HasSpellings β]

instance HasSpellings.list : HasSpellings (List α) := ⟨fun as ↦ as.flatMap spellings⟩

instance : HasSpellings (Option α) := ⟨fun o ↦ o.toList.flatMap spellings⟩

instance : HasSpellings (α × β) := ⟨fun p ↦ spellings p.1 ++ spellings p.2⟩

@[simp] theorem spellings_nil : spellings ([] : List α) = [] := rfl

@[simp] theorem spellings_cons (a : α) (as : List α) :
    spellings (a :: as) = spellings a ++ spellings as :=
  List.flatMap_cons

@[simp] theorem spellings_append (as bs : List α) :
    spellings (as ++ bs) = spellings as ++ spellings bs :=
  List.flatMap_append

@[simp] theorem spellings_none : spellings (none : Option α) = [] := rfl

@[simp] theorem spellings_some (a : α) : spellings (some a) = spellings a := List.append_nil _

@[simp] theorem spellings_toList (o : Option α) : spellings o.toList = spellings o := rfl

@[simp] theorem spellings_mk (a : α) (b : β) : spellings (a, b) = spellings a ++ spellings b := rfl

@[simp] theorem mem_spellings_reverse {x : Spelling} {as : List α} :
    x ∈ spellings as.reverse ↔ x ∈ spellings as :=
  (as.reverse_perm.flatMap_right _).mem_iff

theorem mem_spellings {x : Spelling} {as : List α} :
    x ∈ spellings as ↔ ∃ a ∈ as, x ∈ spellings a :=
  List.mem_flatMap

@[simp] theorem spellings_filterMap (as : List (Option α)) :
    spellings (as.filterMap fun a ↦ a) = spellings as := by
  induction as with
  | nil => rfl
  | cons a as ih =>
    cases a with
    | none => exact ih
    | some a =>
      have hcons : (some a :: as).filterMap (fun a ↦ a) = a :: as.filterMap fun a ↦ a := rfl
      rw [hcons, spellings_cons, spellings_cons, spellings_some, ih]

end Instances

@[simp] theorem spellings_string (n : String) : spellings n = [.name n] := rfl

@[simp] theorem spellings_stringLiteral (s : StringLiteral) : spellings s = [.literal s.span] := rfl

@[simp] theorem spellings_templateChunk (ch : TemplateChunk) :
    spellings ch = [.literal ch.span] := rfl

theorem spellings_eq_flatMap_nodes (ns : List Node) :
    spellings ns = (Node.nodes ns).flatMap ownSpellings := by
  have hsingle : ∀ n, spellings n = (Node.nodes [n]).flatMap ownSpellings := fun _ ↦ rfl
  rw [Node.nodes_eq, List.flatMap_assoc]
  refine List.flatMap_congr fun n _ ↦ ?_
  rw [hsingle, Node.nodes_eq [n], List.flatMap_singleton]

/-- A node spells out what belongs to itself and what the nodes right below it spell out. -/
theorem spellings_node (n : Node) : spellings n = ownSpellings n ++ spellings n.children := by
  have hsingle : spellings n = (Node.nodes [n]).flatMap ownSpellings := rfl
  rw [hsingle, Node.nodes_eq, List.flatMap_singleton, List.flatMap_cons,
    spellings_eq_flatMap_nodes]

theorem name_mem_spellings {n : Node} {name : String} :
    .name name ∈ spellings n ↔ name ∈ namesIn [n] := by
  have hsingle : spellings n = (Node.nodes [n]).flatMap ownSpellings := rfl
  simp [hsingle, namesIn, ownSpellings]

theorem literal_mem_spellings {n : Node} {s : Span} :
    .literal s ∈ spellings n ↔ s ∈ literalsIn [n] := by
  have hsingle : spellings n = (Node.nodes [n]).flatMap ownSpellings := rfl
  simp [hsingle, literalsIn, ownSpellings]

@[simp] theorem spellings_debugger : spellings Node.debuggerStatement = [] := rfl

/-- What a node spells out whose kind is known; the condition keeps variables as they are. -/
theorem spellings_of_children {n : Node} (_h : n ≠ .debuggerStatement) :
    spellings n = ownSpellings n ++ spellings n.children :=
  spellings_node n

/-- A function and a class spell out their own names if they have some. -/
@[simp high] theorem spellings_function (name : Option String) (isAsync isGenerator : Bool)
    (ps : List Node) (body : Option Node) :
    spellings (Node.function name isAsync isGenerator ps body)
      = spellings name ++ (spellings ps ++ spellings body) := by
  rw [spellings_node, Node.children, spellings_append, spellings_toList]
  cases name <;> rfl

@[simp high] theorem spellings_classDef (ds : List Node) (name : Option String)
    (heritage : Option Node) (members : List Node) :
    spellings (Node.classDef ds name heritage members)
      = spellings name ++ (spellings ds ++ spellings heritage ++ spellings members) := by
  rw [spellings_node, Node.children, spellings_append, spellings_append, spellings_toList]
  cases name <;> rfl

@[simp high] theorem spellings_template (chunks : List TemplateChunk) (substitutions : List Node) :
    spellings (Node.template chunks substitutions)
      = spellings chunks ++ spellings substitutions := by
  have hchunks : (chunks.map TemplateChunk.span).map Spelling.literal = spellings chunks := by
    rw [List.map_map]
    exact List.map_eq_flatMap
  rw [spellings_node, Node.children, ← hchunks]
  rfl

/-! ## Where it is spelled out -/

variable {source : List Char} {known known' : List Spelling} {lo hi : Nat}

/-- A name consists of characters of names, and a literal stands between two offsets of a text. -/
def Spelling.Within (source : List Char) (lo hi : Nat) : Spelling → Prop
  | .name n => Literal.IsWord n.toList
  | .literal s => s.Covers source ∧ lo ≤ s.start ∧ s.stop ≤ hi

/-- Names and literals are spelled out between two offsets of a text. -/
def Spelled (source : List Char) (lo hi : Nat) (xs : List Spelling) : Prop :=
  ∀ x ∈ xs, x.Within source lo hi

namespace Spelled

variable {xs ys : List Spelling} {lo' hi' : Nat}

theorem mono (h : Spelled source lo hi xs) (hlo : lo' ≤ lo) (hhi : hi ≤ hi') :
    Spelled source lo' hi' xs := by
  intro x hx
  have hx := h x hx
  cases x with
  | name n => exact hx
  | literal s => exact ⟨hx.1, Nat.le_trans hlo hx.2.1, Nat.le_trans hx.2.2 hhi⟩

theorem subset (h : Spelled source lo hi xs) (hsub : ys ⊆ xs) : Spelled source lo hi ys :=
  fun x hx ↦ h x (hsub hx)

theorem append (h : Spelled source lo hi xs) (h' : Spelled source lo hi ys) :
    Spelled source lo hi (xs ++ ys) :=
  List.forall_mem_append.mpr ⟨h, h'⟩

end Spelled

theorem Cursor.At.covers {c : Cursor} (hc : c.At source) : c.token.span.Covers source := by
  obtain ⟨ds, hstart, -⟩ := hc.token.start
  exact ⟨hc.token.start_le_stop, hstart.isBoundary, hc.token.stop.isBoundary⟩

/-- What a token spells out. -/
def tokenSpellings (t : Token) : List Spelling :=
  match t.kind with
  | .word n _ => [.name n]
  | .string .. => [.literal t.span]
  | .template ch _ => [.literal ch.span]
  | _ => []

theorem spelled_token {c : Cursor} (hc : c.At source) :
    Spelled source c.token.span.start c.token.span.stop (tokenSpellings c.token) := by
  unfold tokenSpellings
  split
  · next hkind => exact List.forall_mem_singleton.mpr (hc.token.word _ _ hkind)
  · exact List.forall_mem_singleton.mpr ⟨hc.covers, Nat.le_refl _, Nat.le_refl _⟩
  · next hkind => exact List.forall_mem_singleton.mpr (hc.token.template _ _ hkind)
  · exact nofun

theorem mem_tokenSpellings_of_name? {t : Token} {n : String} (h : t.name? = some n) :
    Spelling.name n ∈ tokenSpellings t := by
  unfold Token.name? at h
  split at h
  · next hkind =>
    split at h
    · cases h
    · cases h
      rw [tokenSpellings, hkind]
      exact List.mem_singleton_self _
  · cases h

theorem mem_tokenSpellings_of_word? {t : Token} {n : String} (h : t.word? = some n) :
    Spelling.name n ∈ tokenSpellings t := by
  unfold Token.word? at h
  split at h
  · next hkind =>
    cases h
    rw [tokenSpellings, hkind]
    exact List.mem_singleton_self _
  · cases h

/-! ## Rules -/

/-- Where no types may be written, a rule that is given parts spells out nothing besides them but
what it reads. -/
class Spells (source : List Char) (known : List Spelling) {α : Type} [HasSpellings α]
    (p : Reader α) : Prop where
  spelled : ∀ {ctx : Context} {c c' : Cursor} {a : α} {lo : Nat}, ctx.typed = false →
    c.At source → lo ≤ c.token.span.start → Spelled source lo c.lastStop known →
    p ctx c = some (a, c') →
    Reading source c c' [] ∧ Spelled source lo c'.lastStop (spellings a)

namespace Spells

section

variable {α β : Type} [HasSpellings α] [HasSpellings β] {p : Reader α} {f : α → Reader β}

theorem mono (h : Spells source known p) (hsub : ∀ x ∈ known, x ∈ known' := by
      intro x; simp <;> grind) : Spells source known' p where
  spelled htyped hc hlo hknown hp := h.spelled htyped hc hlo (hknown.subset hsub) hp

/-- Nothing that is given has to go into what a rule makes. -/
instance (priority := low) anew [h : Spells source [] p] : Spells source known p :=
  h.mono nofun

theorem pure {a : α} (h : ∀ x ∈ spellings a, x ∈ known := by
      intro x; simp [spellings_of_children, ownSpellings, Node.ownNames, Node.ownLiterals, Node.children]
        <;> grind) :
    Spells source known (Pure.pure a : Reader α) where
  spelled _ hc _ hknown hp := by
    cases hp
    exact ⟨.refl hc, hknown.subset h⟩

theorem bind [hp : Spells source known p]
    (hf : ∀ a, Spells source (known ++ spellings a) (f a)) : Spells source known (p >>= f) where
  spelled htyped hc hlo hknown h := by
    obtain ⟨a, c₁, hp', hf'⟩ := exists_of_bind_eq_some h
    obtain ⟨hread, ha⟩ := hp.spelled htyped hc hlo hknown hp'
    obtain ⟨hread', hb⟩ := (hf a).spelled htyped hread.place (Nat.le_trans hlo hread.start_le)
      ((hknown.mono (Nat.le_refl _) hread.last_le).append ha) hf'
    exact ⟨hread.trans hread', hb⟩

theorem along (hp : Spells source known p)
    (hf : ∀ a, Spells source (known ++ spellings a) (f a)) : Spells source known (p >>= f) :=
  bind hf

end

section

variable {α β : Type} [HasSpellings β] {p : Reader α} {q q' : Reader β} {f : α → Reader β}

/-- What the first rule makes does not matter. -/
theorem step [hp : Steps source p] (hf : ∀ a, Spells source known (f a)) :
    Spells source known (p >>= f) where
  spelled htyped hc hlo hknown h := by
    obtain ⟨a, c₁, hp', hf'⟩ := exists_of_bind_eq_some h
    have hread := hp.reading hc hp'
    obtain ⟨hread', hb⟩ := (hf a).spelled htyped hread.place (Nat.le_trans hlo hread.start_le)
      (hknown.mono (Nat.le_refl _) hread.last_le) hf'
    exact ⟨hread.trans hread', hb⟩

theorem value {a : α} (h : Spells source known (f a)) :
    Spells source known (Pure.pure a >>= f) := by
  rwa [pure_bind]

theorem ite {b : Prop} [Decidable b] (hq : Spells source known q) (hq' : Spells source known q') :
    Spells source known (if b then q else q') := by
  split
  · exact hq
  · exact hq'

/-- Where no types may be written, a question may have one answer only. -/
theorem settle {a : α} [hp : Steps source p] [hs : Settles a p]
    (hf : Spells source known (f a)) : Spells source known (p >>= f) where
  spelled htyped hc hlo hknown h := by
    obtain ⟨b, c₁, hb, h⟩ := exists_of_bind_eq_some h
    have hread := hp.reading hc hb
    cases hs.eq htyped hb
    obtain ⟨hread', hb⟩ := hf.spelled htyped hread.place (Nat.le_trans hlo hread.start_le)
      (hknown.mono (Nat.le_refl _) hread.last_le) h
    exact ⟨hread.trans hread', hb⟩

theorem typedOnly {f : Unit → Reader β} : Spells source known (Grammar.typedOnly >>= f) where
  spelled htyped _ _ _ h := by
    rw [typedOnly_bind_eq_none htyped] at h
    cases h

/-- What is asked for holds afterwards. -/
theorem guarded {b : Bool} {f : Unit → Reader β} (hf : b = true → Spells source known (f ())) :
    Spells source known (guardThat b >>= f) := by
  cases b with
  | false => exact ⟨fun _ _ _ _ h ↦ by cases h⟩
  | true => exact step fun _ ↦ hf rfl

/-- What the first rule makes is of one kind. -/
theorem made {kind : Node → Bool} {p : Reader Node} {f : Node → Reader β}
    (hp : Spells source known p) (hkind : Makes kind p)
    (hf : ∀ n, kind n = true → Spells source (known ++ spellings n) (f n)) :
    Spells source known (p >>= f) where
  spelled htyped hc hlo hknown h := by
    obtain ⟨n, c₁, hn, h⟩ := exists_of_bind_eq_some h
    obtain ⟨hread, ha⟩ := hp.spelled htyped hc hlo hknown hn
    obtain ⟨hread', hb⟩ := (hf n (hkind.yields htyped hn)).spelled htyped hread.place
      (Nat.le_trans hlo hread.start_le)
      ((hknown.mono (Nat.le_refl _) hread.last_le).append ha) h
    exact ⟨hread.trans hread', hb⟩

end

section

variable {α : Type} [HasSpellings α] {p : Reader α}

instance : Spells source known (fail : Reader α) := ⟨fun _ _ _ _ h ↦ by cases h⟩

instance : Spells source known (Pure.pure none : Reader (Option α)) := pure

instance [h : Spells source known p] : Spells source known (attempt p) where
  spelled {ctx c c' a lo} htyped hc hlo hknown hp := by
    unfold attempt at hp
    split at hp
    · next hp =>
      cases hp
      rw [spellings_some]
      exact h.spelled htyped hc hlo hknown hp
    · cases hp
      exact ⟨.refl hc, nofun⟩

instance [h : Spells source known p] : Spells source known (some <$> p) where
  spelled htyped hc hlo hknown hp := by
    obtain ⟨a, c₁, hp, hf⟩ := exists_of_bind_eq_some (f := fun a ↦ Pure.pure (some a)) hp
    cases hf
    rw [spellings_some]
    exact h.spelled htyped hc hlo hknown hp

theorem within {g : Context → Context} (h : Spells source known p)
    (hg : ∀ ctx, (g ctx).typed = ctx.typed := by intro; rfl) :
    Spells source known (Grammar.within g p) where
  spelled {ctx _ _ _ _} htyped hc hlo hknown hp :=
    h.spelled ((hg ctx).trans htyped) hc hlo hknown hp

instance [Spells source known p] : Spells source known (inside p) :=
  within inferInstance

instance (isAsync isGenerator : Bool) [Spells source known p] :
    Spells source known (inFunction isAsync isGenerator p) :=
  within inferInstance

theorem firstOf {rules : List (Reader Node)} (h : ∀ rule ∈ rules, Spells source known rule) :
    Spells source known (do
      for rule in rules do
        match ← attempt rule with
        | some node => return node
        | none => Pure.pure ()
      fail : Reader Node) where
  spelled htyped hc hlo hknown hrules := by
    obtain ⟨rule, hmem, hrule⟩ := exists_of_firstOf hrules
    exact (h rule hmem).spelled htyped hc hlo hknown hrule

end

end Spells

/-! ## Tokens that are looked at first -/

/-- A rule that starts at a token spells out nothing else. -/
class SpellsFrom (source : List Char) (t : Token) (known : List Spelling) {α : Type}
    [HasSpellings α] (p : Reader α) : Prop where
  spelled : ∀ {ctx : Context} {c c' : Cursor} {a : α} {lo : Nat}, ctx.typed = false →
    c.At source → c.token = t → lo ≤ c.token.span.start → Spelled source lo c.lastStop known →
    p ctx c = some (a, c') →
    Reading source c c' [] ∧ Spelled source lo c'.lastStop (spellings a)

section

variable {α β : Type} [HasSpellings β] {t : Token} {p : Reader α} {q q' : Reader β}
  {f : α → Reader β}

instance (priority := low) [h : Spells source known q] : SpellsFrom source t known q where
  spelled htyped hc _ hlo hknown hp := h.spelled htyped hc hlo hknown hp

theorem Spells.peek {f : Token → Reader β} (hf : ∀ t, SpellsFrom source t known (f t)) :
    Spells source known (Grammar.peek >>= f) where
  spelled htyped hc hlo hknown h := by
    obtain ⟨t, c₁, ht, h⟩ := exists_of_bind_eq_some h
    cases ht
    exact (hf _).spelled htyped hc rfl hlo hknown h

/-- A name that is looked at is a name, whether it is read as one or not. -/
theorem Spells.peekName {f : Token → Reader β}
    (hf : ∀ t : Token, Spells source (known ++ spellings t.name?) (f t)) :
    Spells source known (Grammar.peek >>= f) where
  spelled {_ c _ _ lo} htyped hc hlo hknown h := by
    obtain ⟨t, c₁, ht, h⟩ := exists_of_bind_eq_some h
    cases ht
    have hname : Spelled source lo c.lastStop (spellings c.token.name?) := by
      cases hname : c.token.name? with
      | none => exact nofun
      | some n =>
        rw [spellings_some]
        exact List.forall_mem_singleton.mpr
          (spelled_token hc (.name n) (mem_tokenSpellings_of_name? hname))
    exact (hf _).spelled htyped hc hlo (hknown.append hname) h

namespace SpellsFrom

theorem ite {b : Prop} [Decidable b] (hq : b → SpellsFrom source t known q)
    (hq' : SpellsFrom source t known q') : SpellsFrom source t known (if b then q else q') := by
  split
  · next hb => exact hq hb
  · exact hq'

theorem stay [hp : Stays p] (hf : ∀ a, SpellsFrom source t known (f a)) :
    SpellsFrom source t known (p >>= f) where
  spelled htyped hc ht hlo hknown h := by
    obtain ⟨a, c₁, ha, h⟩ := exists_of_bind_eq_some h
    cases hp.stays ha
    exact (hf a).spelled htyped hc ht hlo hknown h

/-- Behind a token, what it spells out is known. -/
theorem skip {f : Unit → Reader β} (hf : Spells source (known ++ tokenSpellings t) (f ())) :
    SpellsFrom source t known (Grammar.skip >>= f) where
  spelled htyped hc ht hlo hknown h := by
    obtain ⟨u, c₁, hskip, h⟩ := exists_of_bind_eq_some h
    cases hskip
    subst ht
    have hread := Reading.advance hc
    have htoken := (spelled_token hc).mono hlo (Nat.le_refl _)
    obtain ⟨hread', hb⟩ := hf.spelled htyped hread.place (Nat.le_trans hlo hread.start_le)
      ((hknown.mono (Nat.le_refl _) hread.last_le).append htoken) h
    exact ⟨hread.trans hread', hb⟩

end SpellsFrom

end

/-! ## Rules that read a token -/

instance : Spells source [] name := by
  unfold name
  refine .peek fun t ↦ ?_
  split
  · next n hname =>
    have hmem := mem_tokenSpellings_of_name? hname
    exact .stay fun _ ↦ .stay fun _ ↦ .skip (.pure (by simpa using hmem))
  · infer_instance

instance : Spells source [] anyWord := by
  unfold anyWord
  refine .peek fun t ↦ ?_
  split
  · next n hword =>
    have hmem := mem_tokenSpellings_of_word? hword
    exact .skip (.pure (by simpa using hmem))
  · infer_instance

instance : Spells source [] stringLiteral := by
  unfold stringLiteral
  refine .peek fun t ↦ ?_
  split
  · next hkind => exact .skip (.pure (by simp [tokenSpellings, hkind]))
  · infer_instance

instance : Spells source [] templateHead := by
  unfold templateHead
  refine .peek fun t ↦ ?_
  split
  · next hkind => exact .skip (.pure (by simp [tokenSpellings, hkind]))
  · infer_instance

/-- A chunk behind a substitution starts behind the closing brace. -/
instance : Spells source [] templateTail where
  spelled {ctx c c' a lo} _ hc hlo _ h := by
    have hread : Reading source c c' [] := Steps.reading hc h
    refine ⟨hread, ?_⟩
    unfold templateTail at h
    split at h
    · split at h
      · next ch w isLast rest hchunk =>
        cases h
        rw [spellings_mk, spellings_templateChunk, spellings_leaf, List.append_nil]
        refine List.forall_mem_singleton.mpr ?_
        obtain ⟨v, u, delimiter, hspan, rfl, htext, -⟩ := Literal.takes_chunk hchunk
        have hstart := hc.token.start_le_stop
        have hstop : Literal.Takes source c.token.span.stop c.rest := by
          refine hc.token.stop.resolve_right fun hnil ↦ ?_
          rw [hnil.1] at hchunk
          cases hchunk
        refine ⟨?_, ?_, ?_⟩ <;> rw [hspan]
        · exact ⟨Nat.le_add_right _ _, hstop.isBoundary, (hstop.trans htext).isBoundary⟩
        · exact Nat.le_trans hlo hstart
        · exact Nat.add_le_add_left (Nat.le_add_right _ _) _
      · cases h
    · cases h

/-! ## Repetition -/

section Repetition

variable {α β : Type} [HasSpellings α] [HasSpellings β]

/-- What is put together step by step spells out what is known and what is read. -/
theorem spells_repeatFrom {step : α → Reader (Option α)}
    (hstep : ∀ a, Spells source (known ++ spellings a) (step a)) {a : α}
    (ha : ∀ x ∈ spellings a, x ∈ known) : Spells source known (repeatFrom a step) where
  spelled {ctx c c' b lo} htyped hc hlo hknown h := by
    refine grow_induction (fun b c₁ ↦ Reading source c c₁ [] ∧
      Spelled source lo c₁.lastStop (spellings b)) (fun b c₁ o c₂ hb ho ↦ ?_)
      ⟨.refl hc, hknown.subset ha⟩ h
    obtain ⟨hread, hb⟩ := hb
    obtain ⟨hread', ho⟩ := (hstep b).spelled htyped hread.place (Nat.le_trans hlo hread.start_le)
      ((hknown.mono (Nat.le_refl _) hread.last_le).append hb) ho
    refine ⟨hread.trans hread', ?_⟩
    cases o with
    | none => exact hb.mono (Nat.le_refl _) hread'.last_le
    | some d => rwa [spellings_some] at ho

theorem Spells.loop {a : α} {step : α → Reader (Option α)} {f : α → Reader β}
    (hstep : ∀ a, Spells source (known ++ spellings a) (step a))
    (hf : ∀ a, Spells source (known ++ spellings a) (f a))
    (ha : ∀ x ∈ spellings a, x ∈ known := by intro x; simp) :
    Spells source known (repeatFrom a step >>= f) :=
  .along (spells_repeatFrom hstep ha) hf

instance {isEnd : Token → Bool} {element : Reader α} [Spells source [] element] :
    Spells source [] (readUntil isEnd element) := by
  unfold readUntil
  exact .loop (fun as ↦ .step fun _ ↦ .ite .pure (.bind fun _ ↦ .pure)) fun _ ↦ .pure

instance {close : String} {element : Reader α} [Spells source [] element] :
    Spells source [] (listUpTo close element) := by
  unfold listUpTo
  refine .loop (fun (as, again, _) ↦ .step fun _ ↦ .ite .pure (.bind fun _ ↦ .step fun _ ↦ .pure))
    fun (as, _, _) ↦ .step fun _ ↦ .pure

instance {element : Reader α} [Spells source [] element] :
    Spells source [] (commaSeparated element) := by
  unfold commaSeparated
  exact .bind fun _ ↦ .loop (fun _ ↦ .step fun _ ↦ .ite (.bind fun _ ↦ .pure) .pure) fun _ ↦ .pure

end Repetition

end Grammar

end Downlevel.Script
