import Downlevel.Proofs.CommonJs.Placement
import Downlevel.Proofs.Script.Grammar.Kind

/-!
# Scripts that are read

Every script that is read is well-placed. A statement is read from one place to another one, and all
that is in it is found in between (`ItemAt`); this is kept along the statements of a script
(`ItemsAt`). The one thing that is read outside of its statement are decorators in front of the word
`export`: they belong to the class that is exported, and stand in front of the statement.
-/

namespace Downlevel.CommonJs

open Script Script.Grammar Text

variable {source : List Char} {ctx : Context} {c c₁ c' : Cursor} {n body : Node} {span : Span}
  {leading : List Comment}

/-! ## One statement -/

/-- The spans in a statement lie as in a well-placed script. -/
structure ItemPlaced (source : List Char) (n : Node) : Prop where
  covers : (itemSpan n).Covers source
  starts : startsInLine source (itemSpan n) = true
  exported : ∀ inner ∈ exportedSpan? n,
    inner.Covers source ∧ (itemSpan n).start < inner.start ∧ inner.stop ≤ (itemSpan n).stop
  nested : ∀ p ∈ imports n, p.1.Nested (content n) ∨ p.1.stop ≤ (itemSpan n).start
  whole : ∀ p ∈ imports n, p.1 = itemSpan n → isImportStatement n = true
  kept : ∀ features, isCut features n = true →
    imports n = [] ∨ ∃ span leading e, n = .item span leading (.expressionStatement e)

/-- A statement that is read from one place to another one, perhaps behind decorators that belong to
what it exports. -/
structure ItemAt (source : List Char) (c : Cursor) (n : Node) (c' : Cursor) : Prop where
  placed : ItemPlaced source n
  found : Found source false [] c (imports n) c'
  start_le : c.token.span.start ≤ (itemSpan n).start
  stop_eq : (itemSpan n).stop = c'.lastStop

theorem imports_item : imports (Node.item span leading body) = imports body := by
  simp [imports_of_children, Node.children]

/-- What is read from a place on starts in a line. -/
theorem covers_of_reading (hc : c.At source) (hread : Reading source c c' [])
    (hmoved : c.token.span.start < c'.lastStop) :
    Span.Covers ⟨c.token.span.start, c'.lastStop⟩ source ∧
      startsInLine source ⟨c.token.span.start, c'.lastStop⟩ = true := by
  obtain ⟨ds, htakes, hhead⟩ := hc.token.start
  have hcovers : Span.Covers ⟨c.token.span.start, c'.lastStop⟩ source :=
    ⟨Nat.le_of_lt hmoved, htakes.isBoundary, hread.place.last⟩
  refine ⟨hcovers, ?_⟩
  have hwidth := width_slice htakes.isBoundary hread.place.last (Nat.le_of_lt hmoved)
  rw [slice, htakes.dropBytes_eq] at hwidth
  rw [startsInLine, slice, htakes.dropBytes_eq]
  cases ds with
  | nil =>
    have hempty : 0 = c'.lastStop - c.token.span.start := hwidth
    omega
  | cons d ds =>
    have hd : d ≠ '\n' := fun heq ↦ hhead (congrArg some heq)
    rw [takeBytes, if_neg (by dsimp only; omega)]
    simpa using hd

/-- A statement without dynamic imports that exports nothing in its own place. -/
theorem ItemPlaced.of_nil (hcovers : (itemSpan n).Covers source)
    (hstarts : startsInLine source (itemSpan n) = true) (hexported : exportedSpan? n = none)
    (hnone : imports n = []) : ItemPlaced source n where
  covers := hcovers
  starts := hstarts
  exported inner hinner := by
    rw [hexported] at hinner
    cases hinner
  nested p hp := by
    rw [hnone] at hp
    cases hp
  whole p hp := by
    rw [hnone] at hp
    cases hp
  kept _ _ := .inl hnone

theorem exists_expression_of_isInner {features : Features} (hinner : isInner body = true)
    (hcut : isCut features (.item span leading body) = true) :
    ∃ span' leading' e,
      Node.item span leading body = .item span' leading' (.expressionStatement e) := by
  cases body <;> first
    | exact ⟨_, _, _, rfl⟩
    | exact absurd hinner Bool.false_ne_true
    | exact absurd hcut Bool.false_ne_true

/-- A statement that exports nothing. -/
theorem itemAt_of_fits (hc : c.At source) (hfits : Fits source isImportBody c body c')
    (hexported : ∀ span leading, exportedSpan? (.item span leading body) = none)
    (hkept : imports body = [] ∨ isInner body = true) (leading : List Comment) :
    ItemAt source c (.item ⟨c.token.span.start, c'.lastStop⟩ leading body) c' := by
  obtain ⟨hcovers, hstarts⟩ := covers_of_reading hc hfits.found.reading hfits.moved
  refine ⟨⟨hcovers, hstarts, ?_, ?_, ?_, ?_⟩, ?_, Nat.le_refl _, rfl⟩
  · intro inner hinner
    rw [hexported] at hinner
    cases hinner
  · intro p hp
    rw [imports_item] at hp
    obtain ⟨hp, hstart, hstop⟩ := hfits.found.inside hp
    left
    rw [content, hexported, Option.getD_none]
    exact ⟨hstart, Nat.lt_of_lt_of_le hp.nonempty hstop, hstop⟩
  · intro p hp heq
    rw [imports_item] at hp
    have hbare := hfits.bare p hp (by rw [heq]; rfl) (by rw [heq]; rfl)
    unfold isImportBody at hbare
    split at hbare
    · unfold isImportCall at hbare
      split at hbare
      · rfl
      · cases hbare
    · cases hbare
  · intro features hcut
    rw [imports_item]
    exact hkept.imp_right fun hinner ↦ exists_expression_of_isInner hinner hcut
  · rw [imports_item]
    exact hfits.found

/-! ## Exports -/

variable {known : List (Span × Span)} {inner : Span} {value : Node} {r : Rules}

/-- What is exported stands behind the first word of its statement, with the dynamic imports in it,
besides those known before. -/
structure ExportedAt (source : List Char) (known : List (Span × Span)) (c : Cursor) (inner : Span)
    (value : Node) (c' : Cursor) : Prop where
  covers : inner.Covers source
  start_lt : c.token.span.start < inner.start
  stop_le : inner.stop ≤ c'.lastStop
  nested : ∀ p ∈ imports value, p ∈ known ∨ p.1.Nested inner

theorem of_spanned_eq_some {p : Reader Node} (h : spanned p ctx c = some ((inner, value), c')) :
    inner = ⟨c.token.span.start, c'.lastStop⟩ ∧ p ctx c = some (value, c') := by
  obtain ⟨start, c₁, hposition, h⟩ := exists_of_bind_eq_some h
  cases hposition
  obtain ⟨value', c₁, hvalue, h⟩ := exists_of_bind_eq_some h
  cases h
  exact ⟨rfl, hvalue⟩

theorem exportedAt_of_found {c₂ : Cursor} (hc : c₁.At source)
    (hstart : c.token.span.start < c₁.token.span.start)
    (hfound : Found source false known c₁ (imports value) c₂)
    (hmoved : c₁.token.span.start < c₂.lastStop) (hstop : c₂.lastStop ≤ c'.lastStop) :
    ExportedAt source known c ⟨c₁.token.span.start, c₂.lastStop⟩ value c' := by
  obtain ⟨found, hread, -, hsub⟩ := hfound
  refine ⟨(covers_of_reading hc hread.forget hmoved).1, hstart, hstop, fun p hp ↦ ?_⟩
  refine (List.mem_append.mp (hsub.subset hp)).imp_right fun hmem ↦ ?_
  obtain ⟨hfirst, hlast⟩ := hread.inside p hmem
  exact ⟨hfirst, Nat.lt_of_lt_of_le (hread.importAt p hmem).nonempty hlast, hlast⟩

variable [Rules.Sound source r] {ds : List Node}

theorem exists_exportDefault (hc : c₁.At source) (hstart : c.token.span.start < c₁.token.span.start)
    (h : exportDefault r ds ctx c₁ = some (body, c')) :
    ∃ inner value, ExportedAt source (imports ds) c inner value c' ∧
      body = .exportDefault inner value := by
  unfold exportDefault at h
  obtain ⟨u, c₂, hword, h⟩ := exists_of_bind_eq_some h
  have hfirst : Reading source c₁ c₂ [] := Steps.reading hc hword
  obtain ⟨⟨inner, value⟩, c₃, hspanned, h⟩ := exists_of_bind_eq_some h
  obtain ⟨rfl, hvalue⟩ := of_spanned_eq_some hspanned
  have hfound := (carries_defaultValue r ds).found hfirst.place hvalue
  have hat {c' : Cursor} (hstop : c₃.lastStop ≤ c'.lastStop) :=
    exportedAt_of_found hfirst.place (Nat.lt_of_lt_of_le hstart hfirst.start_le) hfound
      (Moves.moves hfirst.place hvalue) hstop
  dsimp only at h
  split at h
  · obtain ⟨u, c₄, hend, h⟩ := exists_of_bind_eq_some h
    cases h
    exact ⟨_, _, hat (Steps.reading hfound.reading.place hend).last_le, rfl⟩
  · cases h
    exact ⟨_, _, hat (Nat.le_refl _), rfl⟩

theorem exists_exportedDeclaration (hc : c₁.At source)
    (hstart : c.token.span.start < c₁.token.span.start) (htyped : ctx.typed = false)
    (h : exportedDeclaration r ds ctx c₁ = some (body, c')) :
    ∃ inner value, ExportedAt source (imports ds) c inner value c' ∧
      body = .exportDeclaration inner value ∧ isRuntimeDeclaration value = true := by
  rw [exportedDeclaration_eq] at h
  obtain ⟨⟨inner, value⟩, c₂, hspanned, h⟩ := exists_of_bind_eq_some h
  cases h
  obtain ⟨rfl, hvalue⟩ := of_spanned_eq_some hspanned
  have hopens : Opens source (imports ds) (namedDeclaration r ds) := opens_namedDeclaration r ds
  exact ⟨_, _, exportedAt_of_found hc hstart (hopens.carries.early.found hc hvalue)
    (hopens.moves.moves hc hvalue) (Nat.le_refl _), rfl, Makes.kind htyped hvalue⟩

theorem exportStatement_cases (hc : c.At source) (htyped : ctx.typed = false)
    (h : exportStatement r ds ctx c = some (body, c')) :
    isExportClause body = true ∨ ∃ inner value, ExportedAt source (imports ds) c inner value c' ∧
      (body = .exportDefault inner value ∨
        body = .exportDeclaration inner value ∧ isRuntimeDeclaration value = true) := by
  unfold exportStatement at h
  obtain ⟨u, c₁, hword, h⟩ := exists_of_bind_eq_some h
  have hfirst := Steps.reading hc hword
  have hbehind : c.token.span.start < c₁.token.span.start :=
    Nat.lt_of_lt_of_le (Moves.moves hc hword) hfirst.place.last_le
  obtain ⟨t, c₂, hpeek, h⟩ := exists_of_bind_eq_some h
  cases hpeek
  obtain ⟨following, c₂, hpeek, h⟩ := exists_of_bind_eq_some h
  cases hpeek
  dsimp only at h
  split at h
  · obtain ⟨inner, value, hat, hbody⟩ := exists_exportDefault hfirst.place hbehind h
    exact .inr ⟨inner, value, hat, .inl hbody⟩
  split at h
  · exact .inl (Makes.kind htyped h)
  split at h
  · exact .inl (Makes.kind htyped h)
  split at h
  · rw [typedOnly_bind_eq_none htyped] at h
    cases h
  split at h
  · rw [typedOnly_bind_eq_none htyped] at h
    cases h
  split at h
  · rw [exportOfTypes, typedOnly_bind_eq_none htyped] at h
    cases h
  split at h
  · rw [exportAsNamespace, typedOnly_bind_eq_none htyped] at h
    cases h
  · obtain ⟨inner, value, hat, hbody⟩ := exists_exportedDeclaration hfirst.place hbehind htyped h
    exact .inr ⟨inner, value, hat, .inr hbody⟩

theorem ItemPlaced.of_clause (hcovers : span.Covers source)
    (hstarts : startsInLine source span = true) (hclause : isExportClause body = true)
    (leading : List Comment) : ItemPlaced source (.item span leading body) := by
  unfold isExportClause at hclause
  split at hclause
  · exact .of_nil hcovers hstarts rfl (by simp [imports_of_children, Node.children])
  · exact .of_nil hcovers hstarts rfl (by simp [imports_of_children, Node.children])
  · cases hclause

/-- The dynamic imports known before stand in front of the statement. -/
theorem ExportedAt.itemPlaced (h : ExportedAt source known c inner value c') (hc : c.At source)
    (hcovers : Span.Covers ⟨c.token.span.start, c'.lastStop⟩ source)
    (hstarts : startsInLine source ⟨c.token.span.start, c'.lastStop⟩ = true)
    (hknown : ∀ p ∈ known, p.1.stop ≤ c.lastStop)
    (hnonempty : ∀ p ∈ imports body, p.1.start < p.1.stop)
    (hbody : body = .exportDefault inner value ∨
      body = .exportDeclaration inner value ∧ isRuntimeDeclaration value = true)
    (leading : List Comment) :
    ItemPlaced source (.item ⟨c.token.span.start, c'.lastStop⟩ leading body) := by
  have himports : imports body = imports value := by
    rcases hbody with rfl | ⟨rfl, -⟩ <;> simp [imports_of_children, Node.children]
  have hexported :
      exportedSpan? (.item ⟨c.token.span.start, c'.lastStop⟩ leading body) = some inner := by
    rcases hbody with rfl | ⟨rfl, -⟩ <;> rfl
  -- An import of the value that is not within it is one of the decorators known before.
  have hnested : ∀ p ∈ imports value, p.1.Nested inner ∨ p.1.stop ≤ c.token.span.start :=
    fun p hp ↦ (h.nested p hp).symm.imp_right fun hmem ↦
      Nat.le_trans (hknown p hmem) hc.last_le
  refine ⟨hcovers, hstarts, ?_, ?_, ?_, ?_⟩
  · intro inner' hinner
    rw [hexported, Option.mem_some_iff] at hinner
    subst hinner
    exact ⟨h.covers, h.start_lt, h.stop_le⟩
  · rw [imports_item, himports, content, hexported]
    exact hnested
  · intro p hp heq
    rw [imports_item] at hp
    have hroom := hnonempty p hp
    rw [himports] at hp
    have hstart : p.1.start = c.token.span.start := by rw [heq]; rfl
    have hbehind := h.start_lt
    rcases hnested p hp with hin | hbefore
    · have hfirst := hin.1
      omega
    · omega
  · intro features hcut
    rcases hbody with rfl | ⟨rfl, hruntime⟩
    · left
      have htype : isTypeDeclaration value = true := (Bool.and_eq_true_iff.mp hcut).2
      unfold isTypeDeclaration at htype
      split at htype
      · simp [imports_of_children, Node.children]
      · cases htype
    · -- What stays at run time is never cut out.
      have hlost : (!isRuntimeDeclaration value) = true := (Bool.and_eq_true_iff.mp hcut).2
      rw [hruntime] at hlost
      cases hlost

/-- The decorators of what is exported may stand in front of the statement. -/
theorem itemAt_of_exportStatement (hds : Found source true [] c (imports ds) c₁)
    (htyped : ctx.typed = false) (h : exportStatement r ds ctx c₁ = some (body, c'))
    (leading : List Comment) :
    ItemAt source c (.item ⟨c₁.token.span.start, c'.lastStop⟩ leading body) c' := by
  have hplace := hds.reading.place
  have hopens : Opens source (imports ds) (exportStatement r ds) := opens_exportStatement r ds
  have hbody := hopens.carries.found hplace h
  have hfound := hds.trans hbody
  obtain ⟨hcovers, hstarts⟩ :=
    covers_of_reading hplace hbody.reading (hopens.moves.moves hplace h)
  refine ⟨?_, by rw [imports_item]; exact hfound.early, hds.reading.start_le, rfl⟩
  rcases exportStatement_cases hplace htyped h with hclause | ⟨inner, value, hat, hexports⟩
  · exact .of_clause hcovers hstarts hclause leading
  · exact hat.itemPlaced hplace hcovers hstarts (fun p hp ↦ (hds.inside hp).2.2)
      (fun p hp ↦ (hfound.inside hp).1.nonempty) hexports leading

/-! ## All statements -/

theorem itemAt_of_inner (hc : c.At source) (hfits : Fits source isImportBody c body c')
    (hinner : isInner body = true) (leading : List Comment) :
    ItemAt source c (.item ⟨c.token.span.start, c'.lastStop⟩ leading body) c' := by
  refine itemAt_of_fits hc hfits (fun _ _ ↦ ?_) (.inr hinner) leading
  cases body <;> first
    | rfl
    | cases hinner

theorem itemAt_of_statement (hc : c.At source) (htyped : ctx.typed = false)
    (h : statement r false ctx c = some (n, c')) : ItemAt source c n c' := by
  cases readsStatement_of_statement h with
  | decoratedExport _ hdecorators _ hbody =>
    exact itemAt_of_exportStatement (Carries.found hc hdecorators) htyped hbody _
  | @decorated ds _ _ _ _ hdecorators hbody =>
    -- The decorators of a class that stays inside are part of its statement.
    have hfound : Found source true [] c (imports ds) _ := Carries.found hc hdecorators
    have hopens : Opens source (imports ds) (decoratedDeclaration r ds) :=
      opens_decoratedDeclaration r ds
    have hplace := hfound.reading.place
    have hmoved := Nat.lt_of_le_of_lt hfound.reading.start_le (hopens.moves.moves hplace hbody)
    have hinner : Makes isInner (decoratedDeclaration r ds) := inferInstance
    exact itemAt_of_inner hc (.of_late (hfound.trans (hopens.carries.found hplace hbody)) hmoved)
      (hinner.yields htyped hbody) _
  | exported _ hbody => exact itemAt_of_exportStatement (.refl hc (.refl _)) htyped hbody _
  | @imported body c' _ hbody =>
    have himport : isImport body = true := Makes.kind htyped hbody
    have hopens : Opens source [] importDeclaration := inferInstance
    have hfits : Fits source isImportBody c body c' :=
      .of_late (hopens.carries.found hc hbody) (hopens.moves.moves hc hbody)
    unfold isImport at himport
    split at himport
    · exact itemAt_of_fits hc hfits (fun _ _ ↦ rfl)
        (.inl (by simp [imports_of_children, Node.children])) _
    · cases himport
  | plain hbody =>
    have hinner : Makes isInner (plainStatement r false) := inferInstance
    exact itemAt_of_inner hc (Expresses.fits hc hbody) (hinner.yields htyped hbody) _

/-! ## Statements in a row -/

/-- Statements, the last one first, that are read from one place to another one. A dynamic import in
one of them stands beside all others. -/
structure ItemsAt (source : List Char) (c : Cursor) (ns : List Node) (c' : Cursor) : Prop where
  placed : ∀ n ∈ ns, ItemPlaced source n
  found : Found source false [] c (imports ns) c'
  stop_le : ∀ n ∈ ns, (itemSpan n).stop ≤ c'.lastStop
  ordered : ns.Pairwise fun b a ↦ (itemSpan a).stop ≤ (itemSpan b).start
  apart : ∀ p ∈ imports ns, ∀ n ∈ ns, p ∈ imports n ∨ p.1.Apart (itemSpan n)

namespace ItemsAt

variable {ns : List Node} {c₂ : Cursor}

theorem nil (hc : c.At source) : ItemsAt source c [] c where
  placed := nofun
  found := .refl hc (.refl _)
  stop_le := nofun
  ordered := .nil
  apart := nofun

theorem cons (h : ItemsAt source c ns c₁) (hn : ItemAt source c₁ n c₂) :
    ItemsAt source c (n :: ns) c₂ where
  placed := List.forall_mem_cons.mpr ⟨hn.placed, h.placed⟩
  found := by
    rw [imports_cons]
    have hboth : Found source false (imports ns ++ []) c₁ (imports ns ++ imports n) c₂ :=
      hn.found.frame
    rw [List.append_nil] at hboth
    exact (h.found.trans hboth).of_subperm List.perm_append_comm.subperm
  stop_le := List.forall_mem_cons.mpr ⟨Nat.le_of_eq hn.stop_eq,
    fun a ha ↦ Nat.le_trans (h.stop_le a ha) hn.found.reading.last_le⟩
  ordered := .cons (fun a ha ↦ Nat.le_trans (h.stop_le a ha)
    (Nat.le_trans h.found.reading.place.last_le hn.start_le)) h.ordered
  apart p hp a ha := by
    have hbetween := h.found.reading.place.last_le
    rw [imports_cons] at hp
    rcases List.mem_append.mp hp with hnew | hold <;> rcases List.mem_cons.mp ha with rfl | ha
    · exact .inl hnew
    · exact .inr (.inr (Nat.le_trans (h.stop_le a ha)
        (Nat.le_trans hbetween (hn.found.inside hnew).2.1)))
    · exact .inr (.inl (Nat.le_trans (h.found.inside hold).2.2
        (Nat.le_trans hbetween hn.start_le)))
    · exact h.apart p hold a ha

end ItemsAt

/-- A string at the start of a script is a directive in the same place. -/
theorem ItemAt.directive (h : ItemAt source c (.item span leading body) c') (raw : String) :
    ItemAt source c (.item span leading (.directive raw)) c' := by
  have hnone : imports (Node.item span leading (.directive raw)) = [] := by
    simp [imports_of_children, Node.children]
  refine ⟨.of_nil h.placed.covers h.placed.starts rfl hnone, ?_, h.start_le, h.stop_eq⟩
  rw [hnone]
  exact h.found.of_subperm List.nil_subperm

theorem itemsAt_of_statements {isEnd : Token → Bool} {r : Rules} {ns : List Node}
    (hitem : ∀ {c c' : Cursor} {n : Node}, c.At source → r.statement false ctx c = some (n, c') →
      ItemAt source c n c')
    (hc : c.At source) (h : statements r isEnd ctx c = some (ns, c')) :
    ItemsAt source c ns.reverse c' :=
  statements_induction (ItemsAt source c) (.nil hc)
    (fun hitems hn ↦ hitems.cons (hitem hitems.found.reading.place hn))
    (fun hitems hn _ ↦ hitems.cons ((hitem hitems.found.reading.place hn).directive _)) h

/-! ## Scripts -/

variable {m : Module}

theorem itemsAt_of_parse (h : parse false source = some m) :
    ∃ c c', ItemsAt source c m.items.reverse c' := by
  obtain ⟨c, c', hc, hitems⟩ := exists_statements_of_parse h
  exact ⟨c, c', itemsAt_of_statements (fun hc hn ↦ itemAt_of_statement hc rfl hn) hc hitems⟩

theorem imports_items_perm (m : Module) : (dynamicImports m).Perm (imports m.items.reverse) := by
  rw [dynamicImports, imports_outermost]
  exact (imports_reverse_perm m.items).symm

/-- Every script that is read is well-placed. -/
theorem wellPlaced_of_parse (h : parse false source = some m) : WellPlaced source m := by
  obtain ⟨c, c', hitems⟩ := itemsAt_of_parse h
  have hperm := imports_items_perm m
  have hplaced (n : Node) (hn : n ∈ m.items) := hitems.placed n (List.mem_reverse.mpr hn)
  have himport (p : Span × Span) (hp : p ∈ dynamicImports m) :=
    (hitems.found.inside (hperm.subset hp)).1
  have hapart (p : Span × Span) (hp : p ∈ dynamicImports m) (n : Node) (hn : n ∈ m.items) :=
    hitems.apart p (hperm.subset hp) n (List.mem_reverse.mpr hn)
  constructor
  · exact fun n hn ↦ (hplaced n hn).covers
  · exact fun n hn ↦ (hplaced n hn).starts
  · exact List.pairwise_reverse.mp hitems.ordered
  · exact fun n hn inner hinner ↦ ((hplaced n hn).exported inner hinner).1
  · exact fun n hn inner hinner ↦ ((hplaced n hn).exported inner hinner).2
  · exact fun p hp ↦ ⟨(himport p hp).covers, (himport p hp).argument_covers⟩
  · exact fun p hp ↦ ⟨(himport p hp).start_lt, (himport p hp).stop_lt⟩
  · obtain ⟨found, hread, -, hsub⟩ := hitems.found
    exact (hread.of_subperm (hperm.subperm.trans hsub)).apart
  · intro p hp n hn
    rcases hapart p hp n hn with hin | hbeside
    · exact ((hplaced n hn).nested p hin).imp_right .inl
    · exact .inr hbeside
  · intro p hp n hn heq
    rcases hapart p hp n hn with hin | hbeside
    · exact (hplaced n hn).whole p hin heq
    · exact absurd heq (hbeside.ne (himport p hp).nonempty)

/-- A statement that is cut out around a dynamic import is an expression. -/
theorem exists_expression_of_cut (h : parse false source = some m) (hn : n ∈ m.items)
    {features : Features} (hcut : isCut features n = true) {p : Span × Span}
    (hp : p ∈ dynamicImports m) (hnested : p.1.Nested (itemSpan n)) :
    ∃ span leading e, n = .item span leading (.expressionStatement e) := by
  obtain ⟨c, c', hitems⟩ := itemsAt_of_parse h
  have hmem := (imports_items_perm m).subset hp
  have hn := List.mem_reverse.mpr hn
  rcases hitems.apart p hmem n hn with hin | hbeside
  · rcases (hitems.placed n hn).kept features hcut with hnone | hexpression
    · rw [hnone] at hin
      cases hin
    · exact hexpression
  · exact absurd hnested (hbeside.not_nested (hitems.found.inside hmem).1.nonempty)

end Downlevel.CommonJs
