import Downlevel.Proofs.Script.Grammar.Reading

/-!
# What rules carry

What a rule makes of a text has in it dynamic imports that the rule has come upon, each no more
often than that, besides those in the parts it was given.

## The invariant

A rule is given parts whose dynamic imports are `known`, and finds others from one place to another
one. Those in what it makes of them are a part of both lists together, in any order (`Found`). It is
a part because some are dropped: a pattern that was read as a value is read again. As nothing is
counted twice, imports that were found side by side stay side by side in the whole tree.

Most rules read a token of their own first. What they find is behind it, so none of it starts where
the rule does (`late`). Only operands may start with a dynamic import.
-/

namespace Downlevel.Script.Grammar

open Text CommonJs

variable {source : List Char} {late : Bool} {known xs ys : List (Span × Span)} {c c₁ c' : Cursor}

/-! ## From place to place -/

/-- Some imports are among those known before and those found from one place to another one. Where
it matters, all of these start behind the start of the first token. -/
def Found (source : List Char) (late : Bool) (known : List (Span × Span)) (c : Cursor)
    (xs : List (Span × Span)) (c' : Cursor) : Prop :=
  ∃ found, Reading source c c' found ∧
    (late = true → ∀ p ∈ found, c.token.span.start < p.1.start) ∧ xs.Subperm (known ++ found)

namespace Found

theorem reading (h : Found source late known c xs c') : Reading source c c' [] := by
  obtain ⟨found, hread, -, -⟩ := h
  exact hread.forget

/-- Where nothing is known before, everything is found in between. -/
theorem inside (h : Found source late [] c xs c') {p : Span × Span} (hp : p ∈ xs) :
    ImportAt source p ∧ c.token.span.start ≤ p.1.start ∧ p.1.stop ≤ c'.lastStop := by
  obtain ⟨found, hread, -, hsub⟩ := h
  have hmem := hsub.subset hp
  exact ⟨hread.importAt p hmem, hread.inside p hmem⟩

theorem early (h : Found source late known c xs c') : Found source false known c xs c' := by
  obtain ⟨found, hread, -, hsub⟩ := h
  exact ⟨found, hread, nofun, hsub⟩

theorem mono (h : Found source late known c xs c') {known' : List (Span × Span)}
    (hknown : known.Subperm known') : Found source late known' c xs c' := by
  obtain ⟨found, hread, hlate, hsub⟩ := h
  exact ⟨found, hread, hlate, hsub.trans ((List.subperm_append_right _).mpr hknown)⟩

theorem of_subperm (h : Found source late known c xs c') (hsub : ys.Subperm xs) :
    Found source late known c ys c' := by
  obtain ⟨found, hread, hlate, hxs⟩ := h
  exact ⟨found, hread, hlate, hsub.trans hxs⟩

theorem refl (hc : c.At source) (h : xs.Subperm known) : Found source late known c xs c :=
  ⟨[], .refl hc, nofun, by rwa [List.append_nil]⟩

/-- What is found behind the place where nothing is looked for is found all the same. -/
theorem after (h : Reading source c c₁ []) (h' : Found source late known c₁ ys c') :
    Found source late known c ys c' := by
  obtain ⟨found, hread, hlate, hsub⟩ := h'
  exact ⟨found, h.trans hread,
    fun hl p hp ↦ Nat.lt_of_le_of_lt h.start_le (hlate hl p hp), hsub⟩

/-- Behind the first token, everything is found late. -/
theorem behind (h : Reading source c c₁ []) (hmoved : c.token.span.start < c₁.lastStop)
    (h' : Found source false known c₁ ys c') : Found source late known c ys c' := by
  obtain ⟨found, hread, -, hsub⟩ := h'
  exact ⟨found, h.trans hread, fun _ p hp ↦ Nat.lt_of_lt_of_le hmoved
    (Nat.le_trans h.place.last_le (hread.inside p hp).1), hsub⟩

theorem frame {rest : List (Span × Span)} (h : Found source late known c xs c') :
    Found source late (rest ++ known) c (rest ++ xs) c' := by
  obtain ⟨found, hread, hlate, hsub⟩ := h
  refine ⟨found, hread, hlate, ?_⟩
  rw [List.append_assoc]
  exact (List.subperm_append_left rest).mpr hsub

theorem trans (h : Found source late known c xs c₁) (h' : Found source late xs c₁ ys c') :
    Found source late known c ys c' := by
  obtain ⟨found, hread, hlate, hsub⟩ := h
  obtain ⟨found', hread', hlate', hsub'⟩ := h'
  refine ⟨found ++ found', hread.trans hread', fun hl ↦ List.forall_mem_append.mpr
    ⟨hlate hl, fun p hp ↦ Nat.lt_of_le_of_lt hread.start_le (hlate' hl p hp)⟩, ?_⟩
  rw [← List.append_assoc]
  exact hsub'.trans ((List.subperm_append_right found').mpr hsub)

/-- Behind what was found late and the first token, everything is found late. -/
theorem lead (h : Found source true known c xs c₁) (hmoved : c.token.span.start < c₁.lastStop)
    (h' : Found source false xs c₁ ys c') : Found source late known c ys c' := by
  obtain ⟨found, hread, hlate, hsub⟩ := h
  obtain ⟨found', hread', -, hsub'⟩ := h'
  refine ⟨found ++ found', hread.trans hread', fun _ ↦ List.forall_mem_append.mpr
    ⟨hlate rfl, fun p hp ↦ Nat.lt_of_lt_of_le hmoved
      (Nat.le_trans hread.place.last_le (hread'.inside p hp).1)⟩, ?_⟩
  rw [← List.append_assoc]
  exact hsub'.trans ((List.subperm_append_right found').mpr hsub)

end Found

theorem subperm_of_count {xs ys : List (Span × Span)} (h : ∀ p, xs.count p ≤ ys.count p) :
    xs.Subperm ys :=
  List.subperm_ext_iff.mpr fun p _ ↦ h p

@[simp] theorem count_imports_reverse {α : Type} [HasImports α] (as : List α) (p : Span × Span) :
    (imports as.reverse).count p = (imports as).count p :=
  (imports_reverse_perm as).count_eq p

/-! ## Rules -/

/-- The dynamic imports in what a rule makes are among those known before and those it finds. -/
class Carries (source : List Char) (late : Bool) (known : List (Span × Span)) {α : Type}
    [HasImports α] (p : Reader α) : Prop where
  found : ∀ {ctx : Context} {c c' : Cursor} {a : α}, c.At source → p ctx c = some (a, c') →
    Found source late known c (imports a) c'

/-- A rule reads at least one token. -/
class Moves (source : List Char) {α : Type} (p : Reader α) : Prop where
  moves : ∀ {ctx : Context} {c c' : Cursor} {a : α}, c.At source → p ctx c = some (a, c') →
    c.token.span.start < c'.lastStop

section Combinators

variable {α β : Type} [HasImports α] [HasImports β] {p : Reader α} {f : α → Reader β}

theorem Carries.steps (h : Carries source late known p) : Steps source p where
  reading hc hp := (h.found hc hp).reading

instance (priority := low) [h : Carries source false [] p] : Steps source p := h.steps

instance (priority := low) [h : Carries source true known p] : Carries source false known p where
  found hc hp := (h.found hc hp).early

namespace Carries

theorem mono {known' : List (Span × Span)} (h : Carries source late known p)
    (hknown : ∀ q, known.count q ≤ known'.count q := by
      intro q; simp [imports_of_children, Node.children] <;> omega) :
    Carries source late known' p where
  found hc hp := (h.found hc hp).mono (subperm_of_count hknown)

theorem early (h : Carries source late known p) : Carries source false known p where
  found hc hp := (h.found hc hp).early

/-- Nothing that is known before has to be in what a rule makes. -/
theorem anew [h : Carries source late [] p] : Carries source late known p :=
  h.mono

theorem pure {a : α} (h : ∀ q, (imports a).count q ≤ known.count q := by
      intro q; simp [imports_of_children, Node.children] <;> omega) :
    Carries source late known (Pure.pure a : Reader α) where
  found hc hp := by
    cases hp
    exact .refl hc (subperm_of_count h)

theorem bind [hp : Carries source late [] p]
    (hf : ∀ a, Carries source late (known ++ imports a) (f a)) :
    Carries source late known (p >>= f) where
  found hc h := by
    obtain ⟨a, c₁, hp', hf'⟩ := exists_of_bind_eq_some h
    have hfirst := hp.found hc hp'
    rw [← List.append_nil known]
    exact hfirst.frame.trans ((hf a).found hfirst.reading.place hf')

/-- Some of what is known goes into what the first rule makes, and the rest stays known. -/
theorem along {given : List (Span × Span)} (rest : List (Span × Span))
    (hp : Carries source late given p) (hf : ∀ a, Carries source late (rest ++ imports a) (f a))
    (hknown : ∀ q, (rest ++ given).count q ≤ known.count q := by
      intro q; simp [imports_of_children, Node.children] <;> omega) :
    Carries source late known (p >>= f) where
  found hc h := by
    obtain ⟨a, c₁, hp', hf'⟩ := exists_of_bind_eq_some h
    have hfirst := hp.found hc hp'
    refine .mono ?_ (subperm_of_count hknown)
    exact hfirst.frame.trans ((hf a).found hfirst.reading.place hf')

theorem lead [hp : Carries source true [] p] [hm : Moves source p]
    (hf : ∀ a, Carries source false (known ++ imports a) (f a)) :
    Carries source true known (p >>= f) where
  found hc h := by
    obtain ⟨a, c₁, hp', hf'⟩ := exists_of_bind_eq_some h
    have hfirst := hp.found hc hp'
    rw [← List.append_nil known]
    exact hfirst.frame.lead (hm.moves hc hp') ((hf a).found hfirst.reading.place hf')

end Carries

end Combinators

section Combinators

variable {α β : Type} [HasImports β] {p : Reader α} {f : α → Reader β}

namespace Carries

theorem step [hp : Steps source p] (hf : ∀ a, Carries source late known (f a)) :
    Carries source late known (p >>= f) where
  found hc h := by
    obtain ⟨a, c₁, hp', hf'⟩ := exists_of_bind_eq_some h
    have hfirst := hp.reading hc hp'
    exact .after hfirst ((hf a).found hfirst.place hf')

theorem first [hp : Steps source p] [hm : Moves source p]
    (hf : ∀ a, Carries source false known (f a)) : Carries source true known (p >>= f) where
  found hc h := by
    obtain ⟨a, c₁, hp', hf'⟩ := exists_of_bind_eq_some h
    have hfirst := hp.reading hc hp'
    exact .behind hfirst (hm.moves hc hp') ((hf a).found hfirst.place hf')

theorem value {a : α} (h : Carries source late known (f a)) :
    Carries source late known (Pure.pure a >>= f) := by
  rwa [pure_bind]

theorem ite {b : Prop} [Decidable b] {p q : Reader β} (hp : Carries source late known p)
    (hq : Carries source late known q) : Carries source late known (if b then p else q) := by
  split
  · exact hp
  · exact hq

end Carries

end Combinators

section Combinators

variable {α : Type} [HasImports α] {p : Reader α}

instance : Carries source late known (fail : Reader α) := ⟨fun _ h ↦ by cases h⟩

instance : Carries source late known (pure none : Reader (Option α)) := .pure

instance [h : Carries source late known p] (g : Context → Context) :
    Carries source late known (within g p) where
  found hc hp := h.found hc hp

instance [Carries source late known p] : Carries source late known (inside p) :=
  inferInstanceAs (Carries source late known (within _ p))

instance [h : Carries source late known p] : Carries source late known (attempt p) where
  found {ctx c c' a} hc hp := by
    unfold attempt at hp
    split at hp
    · next hp =>
      cases hp
      exact (h.found hc hp).of_subperm (by rw [imports_some])
    · cases hp
      exact .refl hc List.nil_subperm

instance [h : Carries source late known p] : Carries source late known (some <$> p) where
  found hc hp := by
    obtain ⟨a, c₁, hp, hf⟩ := exists_of_bind_eq_some (f := fun a ↦ pure (some a)) hp
    cases hf
    exact (h.found hc hp).of_subperm (by rw [imports_some])

end Combinators

/-! ## Rules that read a token -/

theorem isWritten_of_isMark {t : Token} {s : String} (h : t.isMark s = true) :
    t.isWritten = true := by
  unfold Token.isMark at h
  unfold Token.isWritten
  split at h
  · next hkind => rw [hkind]
  · cases h

theorem isWritten_of_isWord {t : Token} {s : String} (h : t.isWord s = true) :
    t.isWritten = true := by
  unfold Token.isWord at h
  unfold Token.isWritten
  split at h
  · next hkind => rw [hkind]
  · cases h

theorem takeMark_eq (s : String) (ctx : Context) (c : Cursor) :
    takeMark s ctx c = some (if c.token.isMark s then (true, c.advance) else (false, c)) := by
  have hunfold : takeMark s ctx c = (if c.token.isMark s then do skip; return true
      else return false : Reader Bool) ctx c := rfl
  rw [hunfold]
  split <;> rfl

theorem takeWord_eq (s : String) (ctx : Context) (c : Cursor) :
    takeWord s ctx c = some (if c.token.isWord s then (true, c.advance) else (false, c)) := by
  have hunfold : takeWord s ctx c = (if c.token.isWord s then do skip; return true
      else return false : Reader Bool) ctx c := rfl
  rw [hunfold]
  split <;> rfl

namespace Moves

section

variable {α β : Type} {p q : Reader α} {f : α → Reader β}

theorem left [hp : Moves source p] (hf : ∀ a, Steps source (f a)) [Steps source p] :
    Moves source (p >>= f) where
  moves hc h := by
    obtain ⟨a, c₁, hp', hf'⟩ := exists_of_bind_eq_some h
    exact Nat.lt_of_lt_of_le (hp.moves hc hp')
      ((hf a).reading (Steps.reading hc hp').place hf').last_le

theorem right [hp : Steps source p] (hf : ∀ a, Moves source (f a)) : Moves source (p >>= f) where
  moves hc h := by
    obtain ⟨a, c₁, hp', hf'⟩ := exists_of_bind_eq_some h
    have hfirst := hp.reading hc hp'
    exact Nat.lt_of_le_of_lt hfirst.start_le ((hf a).moves hfirst.place hf')

instance [Moves source p] [Steps source p] [∀ a, Steps source (f a)] : Moves source (p >>= f) :=
  left inferInstance

instance (priority := low) [Steps source p] [∀ a, Moves source (f a)] : Moves source (p >>= f) :=
  right inferInstance

theorem ite {b : Prop} [Decidable b] (hp : Moves source p) (hq : Moves source q) :
    Moves source (if b then p else q) := by
  split
  · exact hp
  · exact hq

instance [h : Moves source p] (g : Context → Context) : Moves source (within g p) where
  moves hc hp := h.moves hc hp

instance [Moves source p] : Moves source (inside p) :=
  inferInstanceAs (Moves source (within _ p))

instance : Moves source (fail : Reader α) := ⟨fun _ h ↦ by cases h⟩

end

section

variable {α : Type} {p q : Reader α}

instance (s : String) [hp : Steps source p] [hq : Moves source q] :
    Moves source (takeMark s >>= fun b ↦ if b = true then p else q) where
  moves hc h := by
    obtain ⟨b, c₁, hb, h⟩ := exists_of_bind_eq_some h
    rw [takeMark_eq, Option.some.injEq] at hb
    split at hb
    · next hmark =>
      cases hb
      exact Nat.lt_of_lt_of_le (hc.token.room (isWritten_of_isMark hmark))
        (hp.reading (Reading.advance hc).place h).last_le
    · cases hb
      exact hq.moves hc h

instance (s : String) [hp : Steps source p] [hq : Moves source q] :
    Moves source (takeWord s >>= fun b ↦ if b = true then p else q) where
  moves hc h := by
    obtain ⟨b, c₁, hb, h⟩ := exists_of_bind_eq_some h
    rw [takeWord_eq, Option.some.injEq] at hb
    split at hb
    · next hword =>
      cases hb
      exact Nat.lt_of_lt_of_le (hc.token.room (isWritten_of_isWord hword))
        (hp.reading (Reading.advance hc).place h).last_le
    · cases hb
      exact hq.moves hc h

end

end Moves

/-! ## Tokens that are looked at first -/

/-- A rule that starts at a token reads at least that one. -/
class MovesFrom (source : List Char) (t : Token) {α : Type} (p : Reader α) : Prop where
  moves : ∀ {ctx : Context} {c c' : Cursor} {a : α}, c.At source → c.token = t →
    p ctx c = some (a, c') → c.token.span.start < c'.lastStop

section

variable {α β : Type} {t : Token} {p q : Reader α} {f : α → Reader β}

theorem Moves.peek {f : Token → Reader β} (hf : ∀ t, MovesFrom source t (f t)) :
    Moves source (Grammar.peek >>= f) where
  moves hc h := by
    obtain ⟨t, c₁, ht, h⟩ := exists_of_bind_eq_some h
    cases ht
    exact (hf _).moves hc rfl h

instance (priority := low) [hp : Moves source p] : MovesFrom source t p where
  moves hc _ h := hp.moves hc h

instance [hp : Stays p] [hf : ∀ a, MovesFrom source t (f a)] : MovesFrom source t (p >>= f) where
  moves hc ht h := by
    obtain ⟨a, c₁, ha, h⟩ := exists_of_bind_eq_some h
    cases hp.stays ha
    exact (hf a).moves hc ht h

instance [hp : MovesFrom source t p] [Steps source p] [hf : ∀ a, Steps source (f a)] :
    MovesFrom source t (p >>= f) where
  moves hc ht h := by
    obtain ⟨a, c₁, hp', hf'⟩ := exists_of_bind_eq_some h
    exact Nat.lt_of_lt_of_le (hp.moves hc ht hp')
      ((hf a).reading (Steps.reading hc hp').place hf').last_le

theorem movesFrom_skip (source : List Char) (ht : t.isWritten = true) :
    MovesFrom source t skip where
  moves hc htoken h := by
    cases h
    rw [← htoken] at ht
    exact hc.token.room ht

end

theorem isWritten_of_name? {t : Token} {n : String} (h : t.name? = some n) :
    t.isWritten = true := by
  unfold Token.name? at h
  unfold Token.isWritten
  split at h
  · next hkind => rw [hkind]
  · cases h

instance (s : String) : Moves source (mark s) := by
  unfold mark guardThat
  infer_instance

instance (s : String) : Moves source (word s) := by
  unfold word guardThat
  infer_instance

instance : Moves source name := by
  unfold name
  refine .peek fun t ↦ ?_
  split
  · next hname =>
    have := movesFrom_skip source (isWritten_of_name? hname)
    infer_instance
  · infer_instance

instance : Moves source templateHead := by
  unfold templateHead
  refine .peek fun t ↦ ?_
  split
  · next hkind =>
    have := movesFrom_skip source (t := t) (by rw [Token.isWritten, hkind])
    infer_instance
  · infer_instance

/-! ## Rules that start with a token of their own -/

/-- A rule reads at least one token, and comes upon dynamic imports only behind the first one. -/
class Opens (source : List Char) (known : List (Span × Span)) {α : Type} [HasImports α]
    (p : Reader α) : Prop where
  carries : Carries source true known p
  moves : Moves source p

section Opens

variable {α β : Type} [HasImports α] [HasImports β] {p : Reader α}

instance (priority := low) [h : Opens source known p] : Carries source true known p := h.carries

instance (priority := low) [h : Opens source [] p] : Moves source p := h.moves

namespace Opens

theorem anew [h : Opens source [] p] : Opens source known p := ⟨.anew, h.moves⟩

theorem bind [hp : Carries source true [] p] {f : α → Reader β}
    (hf : ∀ a, Opens source (known ++ imports a) (f a)) : Opens source known (p >>= f) where
  carries := .bind fun a ↦ (hf a).carries
  moves := .right fun a ↦ (hf a).moves

/-- The first rule takes what is known. -/
theorem along {f : α → Reader β} (hp : Opens source known p)
    (hf : ∀ a, Carries source false (imports a) (f a)) : Opens source known (p >>= f) where
  carries := ⟨fun hc h ↦ by
    obtain ⟨a, c₁, hp', hf'⟩ := exists_of_bind_eq_some h
    have hfirst := hp.carries.found hc hp'
    exact hfirst.lead (hp.moves.moves hc hp') ((hf a).found hfirst.reading.place hf')⟩
  moves :=
    have := hp.moves
    have := hp.carries.steps
    .left fun a ↦ (hf a).steps

theorem lead [hp : Opens source [] p] {f : α → Reader β}
    (hf : ∀ a, Carries source false (known ++ imports a) (f a)) :
    Opens source known (p >>= f) where
  carries := .lead hf
  moves := .left fun a ↦ (hf a).steps

end Opens

end Opens

section Opens

variable {α β : Type} [HasImports β] {p : Reader α} {f : α → Reader β}

namespace Opens

theorem step [hp : Steps source p] (hf : ∀ a, Opens source known (f a)) :
    Opens source known (p >>= f) where
  carries := .step fun a ↦ (hf a).carries
  moves := .right fun a ↦ (hf a).moves

theorem first [hp : Steps source p] [hm : Moves source p]
    (hf : ∀ a, Carries source false known (f a)) : Opens source known (p >>= f) where
  carries := .first hf
  moves := .left fun a ↦ (hf a).steps

theorem ite {b : Prop} [Decidable b] {p q : Reader β} (hp : Opens source known p)
    (hq : Opens source known q) : Opens source known (if b then p else q) := by
  split
  · exact hp
  · exact hq

end Opens

end Opens

/-! ## Repetition -/

section Repetition

variable {α β : Type} [HasImports α] [HasImports β]

theorem carries_repeatFrom {step : α → Reader (Option α)}
    (hstep : ∀ a, Carries source late (imports a) (step a)) (a : α) :
    Carries source late (imports a) (repeatFrom a step) where
  found {ctx c c' b} hc h := by
    refine grow_induction (fun b c₁ ↦ Found source late (imports a) c (imports b) c₁)
      (fun b c₁ o c₂ hb ho ↦ ?_) (.refl hc (.refl _)) h
    have hnext := (hstep b).found hb.reading.place ho
    cases o with
    | none => exact hb.trans (.after hnext.reading (.refl hnext.reading.place (.refl _)))
    | some d =>
      rw [imports_some] at hnext
      exact hb.trans hnext

/-- What is put together step by step, starting from what is known. -/
theorem Carries.grow {a : α} {step : α → Reader (Option α)} {f : α → Reader β}
    (hstep : ∀ a, Carries source late (imports a) (step a))
    (hf : ∀ a, Carries source late (imports a) (f a))
    (ha : ∀ q, (imports a).count q ≤ known.count q := by
      intro q; simp [imports_of_children, Node.children] <;> omega) :
    Carries source late known (repeatFrom a step >>= f) where
  found hc h := by
    obtain ⟨b, c₁, hb, h⟩ := exists_of_bind_eq_some h
    have hfirst := ((carries_repeatFrom hstep a).found hc hb).mono (subperm_of_count ha)
    exact hfirst.trans ((hf b).found hfirst.reading.place h)

/-- What is put together step by step, starting from nothing. -/
theorem Carries.loop {a : α} {step : α → Reader (Option α)} {f : α → Reader β}
    (hstep : ∀ a, Carries source late (imports a) (step a))
    (hf : ∀ a, Carries source late (known ++ imports a) (f a)) (ha : imports a = [] := by rfl) :
    Carries source late known (repeatFrom a step >>= f) := by
  have : Carries source late [] (repeatFrom a step) := ha ▸ carries_repeatFrom hstep a
  exact .bind hf

instance {isEnd : Token → Bool} {element : Reader α} [Carries source late [] element] :
    Carries source late [] (readUntil isEnd element) := by
  unfold readUntil
  exact .loop (fun as ↦ .step fun _ ↦ .ite .pure (.bind fun _ ↦ .pure)) fun _ ↦ .pure

instance {close : String} {element : Reader α} [Carries source late [] element] :
    Carries source late [] (listUpTo close element) := by
  unfold listUpTo
  refine .loop (fun (as, again, _) ↦ .step fun _ ↦ .ite .pure (.bind fun _ ↦ .step fun _ ↦ .pure))
    fun (as, _, _) ↦ .step fun _ ↦ .pure

instance {element : Reader α} [Carries source late [] element] :
    Carries source late [] (commaSeparated element) := by
  unfold commaSeparated
  exact .bind fun _ ↦ .grow (fun _ ↦ .step fun _ ↦ .ite (.bind fun _ ↦ .pure) .pure) fun _ ↦ .pure

end Repetition

instance (d : Char) : Moves source (takeAngle d) where
  moves hc h := by
    unfold takeAngle at h
    split at h
    · split at h
      · split at h
        · cases h
          exact Nat.lt_succ_self _
        · cases h
      · cases h
    · cases h

/-- A rule that goes back to the place where it starts. -/
theorem Carries.ofPlace {α : Type} [HasImports α] {f : Cursor → Reader α}
    (hf : ∀ {ctx : Context} {c c' : Cursor} {a : α}, c.At source → f c ctx c = some (a, c') →
      Found source late known c (imports a) c') :
    Carries source late known (place >>= f) where
  found hc h := by
    obtain ⟨start, c₁, hplace, h⟩ := exists_of_bind_eq_some h
    cases hplace
    exact hf hc h

end Downlevel.Script.Grammar
