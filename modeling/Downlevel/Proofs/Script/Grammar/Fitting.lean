import Downlevel.Proofs.Script.Grammar.Carrying

/-!
# What rules take up

What stands for a value is read on from one operand to the next, so a dynamic import may start where
a statement starts. If it also ends where the statement ends, the statement is nothing but that
import: what goes on behind an operand reads at least one token.
-/

namespace Downlevel.Script.Grammar

open Text CommonJs

variable {source : List Char} {late : Bool} {known xs ys : List (Span × Span)} {c c₁ c' : Cursor}

/-! ## Rules that may add something -/

/-- A rule that starts at a token makes a given value of nothing or reads at least that token. -/
class ExtendsFrom (source : List Char) (t : Token) {α : Type} (a : α) (p : Reader α) : Prop where
  eq_or_moves : ∀ {ctx : Context} {c c' : Cursor} {b : α}, c.At source → c.token = t →
    p ctx c = some (b, c') → b = a ∧ c' = c ∨ c.token.span.start < c'.lastStop

section Extends

variable {α β : Type} {t : Token} {a : β} {p : Reader α} {q : Reader β} {f : α → Reader β}

instance : ExtendsFrom source t a (pure a) where
  eq_or_moves _ _ h := by
    cases h
    exact .inl ⟨rfl, rfl⟩

instance (priority := low) [hq : MovesFrom source t q] : ExtendsFrom source t a q where
  eq_or_moves hc ht h := .inr (hq.moves hc ht h)

instance [hp : Stays p] [hf : ∀ x, ExtendsFrom source t a (f x)] :
    ExtendsFrom source t a (p >>= f) where
  eq_or_moves hc ht h := by
    obtain ⟨x, c₁, hx, h⟩ := exists_of_bind_eq_some h
    cases hp.stays hx
    exact (hf x).eq_or_moves hc ht h

theorem ExtendsFrom.peek {f : Token → Reader β} (hf : ExtendsFrom source t a (f t)) :
    ExtendsFrom source t a (Grammar.peek >>= f) where
  eq_or_moves hc ht h := by
    obtain ⟨t', c₁, hpeek, h⟩ := exists_of_bind_eq_some h
    cases hpeek
    rw [ht] at h
    exact hf.eq_or_moves hc ht h

theorem ExtendsFrom.ite {q' : Reader β} {b : Prop} [Decidable b]
    (hq : b → ExtendsFrom source t a q) (hq' : ExtendsFrom source t a q') :
    ExtendsFrom source t a (if b then q else q') := by
  split
  · next hb => exact hq hb
  · exact hq'

instance {q' : Reader β} [hq : ExtendsFrom source t a q] [hq' : ExtendsFrom source t a q']
    (b : Prop) [Decidable b] : ExtendsFrom source t a (if b then q else q') :=
  .ite (fun _ ↦ hq) hq'

theorem ExtendsFrom.stay [hp : Stays p] (hf : ∀ x, ExtendsFrom source t a (f x)) :
    ExtendsFrom source t a (p >>= f) :=
  inferInstance

/-- A rule that is tried and taken reads a token. -/
theorem ExtendsFrom.attempt [hp : Moves source p] {f : Option α → Reader β}
    (hnone : ExtendsFrom source t a (f none)) (hsome : ∀ x, Stays (f (some x))) :
    ExtendsFrom source t a (Grammar.attempt p >>= f) where
  eq_or_moves hc ht h := by
    obtain ⟨o, c₁, ho, h⟩ := exists_of_bind_eq_some h
    unfold Grammar.attempt at ho
    split at ho
    · next x c₂ hx =>
      cases ho
      rw [(hsome x).stays h]
      exact .inr (hp.moves hc hx)
    · cases ho
      exact hnone.eq_or_moves hc ht h

/-- A step that is not taken reads nothing, so a loop adds nothing or moves on. -/
theorem extends_repeatFrom {step : β → Reader (Option β)}
    (hstep : ∀ (t : Token) (b : β), ExtendsFrom source t none (step b))
    (hsteps : ∀ b, Steps source (step b)) : ExtendsFrom source t a (repeatFrom a step) where
  eq_or_moves {ctx c c' b} hc _ h := by
    change grow step ctx.size a ctx c = _ at h
    generalize ctx.size = n at h
    cases n with
    | zero => cases h
    | succ n =>
      rw [grow] at h
      obtain ⟨o, c₁, ho, hrest⟩ := exists_of_bind_eq_some h
      have hfirst := (hsteps a).reading hc ho
      rcases (hstep _ a).eq_or_moves hc rfl ho with ⟨rfl, rfl⟩ | hmoved
      · cases hrest
        exact .inl ⟨rfl, rfl⟩
      · refine .inr (Nat.lt_of_lt_of_le hmoved ?_)
        cases o with
        | none =>
          cases hrest
          exact Nat.le_refl _
        | some d => exact ((steps_grow hsteps n d).reading hfirst.place hrest).last_le

instance (s : String) {q' : Reader β} [hq : Steps source q] [hq' : ExtendsFrom source t a q'] :
    ExtendsFrom source t a (takeMark s >>= fun b ↦ if b = true then q else q') where
  eq_or_moves hc ht h := by
    obtain ⟨b, c₁, hb, h⟩ := exists_of_bind_eq_some h
    rw [takeMark_eq, Option.some.injEq] at hb
    split at hb
    · next hmark =>
      cases hb
      exact .inr (Nat.lt_of_lt_of_le (hc.token.room (isWritten_of_isMark hmark))
        (hq.reading (Reading.advance hc).place h).last_le)
    · cases hb
      exact hq'.eq_or_moves hc ht h

instance [hp : Moves source p] : ExtendsFrom source t none (attempt p) where
  eq_or_moves hc _ h := by
    unfold attempt at h
    split at h
    · next hx =>
      cases h
      exact .inr (hp.moves hc hx)
    · cases h
      exact .inl ⟨rfl, rfl⟩

theorem loop_repeatFrom [HasImports β] {step : β → Reader (Option β)}
    (hcarries : ∀ b, Carries source late (imports b) (step b))
    (hextends : ∀ (t : Token) (b : β), ExtendsFrom source t none (step b)) (a : β) :
    Carries source late (imports a) (repeatFrom a step) ∧
      ∀ t, ExtendsFrom source t a (repeatFrom a step) :=
  ⟨carries_repeatFrom hcarries a, fun _ ↦
    extends_repeatFrom hextends fun b ↦ (hcarries b).steps⟩

end Extends

/-- A rule that starts with another one, unless that is not taken. -/
theorem Opens.choice {α β : Type} [HasImports α] [HasImports β] {p : Reader (Option α)}
    {f : Option α → Reader β} [hp : Carries source true [] p]
    (hextends : ∀ t, ExtendsFrom source t none p) (hnone : Opens source known (f none))
    (hsome : ∀ a, Carries source true (known ++ imports a) (f (some a))) :
    Opens source known (p >>= f) where
  carries := .bind fun o ↦ by
    cases o with
    | none => exact hnone.carries.mono
    | some a => exact (hsome a).mono
  moves := ⟨fun hc h ↦ by
    obtain ⟨o, c₁, ho, h⟩ := exists_of_bind_eq_some h
    have hfirst := (hp.found hc ho).reading
    cases o with
    | none => exact Nat.lt_of_le_of_lt hfirst.start_le (hnone.moves.moves hfirst.place h)
    | some a =>
      rcases (hextends _).eq_or_moves hc rfl ho with ⟨hsome, -⟩ | hmoved
      · cases hsome
      · exact Nat.lt_of_lt_of_le hmoved ((hsome a).steps.reading hfirst.place h).last_le⟩

/-! ## Rules that may read nothing but an import -/

/-- What a rule makes takes some room and carries the dynamic imports it has come upon. If there is
one in it that takes as much room, it is nothing but that one. -/
structure Fits (source : List Char) (isBare : Node → Bool) (c : Cursor) (n : Node) (c' : Cursor) :
    Prop where
  found : Found source false [] c (imports n) c'
  moved : c.token.span.start < c'.lastStop
  bare : ∀ p ∈ imports n, p.1.start = c.token.span.start → p.1.stop = c'.lastStop →
    isBare n = true

namespace Fits

variable {isBare : Node → Bool} {n : Node}

theorem of_late (h : Found source true [] c (imports n) c')
    (hmoved : c.token.span.start < c'.lastStop) : Fits source isBare c n c' where
  found := h.early
  moved := hmoved
  bare p hp hstart _ := by
    obtain ⟨found, -, hlate, hsub⟩ := h
    exact absurd hstart.symm (Nat.ne_of_lt (hlate rfl p (hsub.subset hp)))

/-- What goes on behind the first part is no dynamic import, nor is a part of it as long. -/
theorem of_lt (h : Found source false [] c xs c₁) (hmoved : c.token.span.start < c₁.lastStop)
    (h' : Found source false xs c₁ (imports n) c') (hlt : c₁.lastStop < c'.lastStop) :
    Fits source isBare c n c' where
  found := h.trans h'
  moved := Nat.lt_trans hmoved hlt
  bare p hp hstart hstop := by
    obtain ⟨found, hread, -, hsub⟩ := h
    obtain ⟨found', hread', -, hsub'⟩ := h'
    rcases List.mem_append.mp (hsub'.subset hp) with hp | hp
    · have hinside := (hread.inside p (hsub.subset hp)).2
      omega
    · have hinside := (hread'.inside p hp).1
      have hplace := hread.place.last_le
      omega

end Fits

/-- What a rule makes fits. -/
class Expresses (source : List Char) (isBare : outParam (Node → Bool)) (p : Reader Node) :
    Prop where
  fits : ∀ {ctx : Context} {c c' : Cursor} {n : Node}, c.At source → p ctx c = some (n, c') →
    Fits source isBare c n c'

/-- What a rule makes that starts at a token fits. -/
class ExpressesFrom (source : List Char) (t : Token) (isBare : Node → Bool) (p : Reader Node) :
    Prop where
  fits : ∀ {ctx : Context} {c c' : Cursor} {n : Node}, c.At source → c.token = t →
    p ctx c = some (n, c') → Fits source isBare c n c'

section Expresses

variable {α : Type} {t : Token} {isBare : Node → Bool} {p q : Reader Node}

instance (priority := low) [hp : Expresses source isBare p] : Carries source false [] p where
  found hc h := (hp.fits hc h).found

instance (priority := low) [hp : Expresses source isBare p] : Moves source p where
  moves hc h := (hp.fits hc h).moved

instance [hp : Expresses source isBare p] (g : Context → Context) :
    Expresses source isBare (within g p) where
  fits hc h := hp.fits hc h

instance [Expresses source isBare p] : Expresses source isBare (inside p) :=
  inferInstanceAs (Expresses source isBare (within _ p))

instance (priority := low) [hp : Expresses source isBare p] : ExpressesFrom source t isBare p where
  fits hc _ h := hp.fits hc h

theorem Expresses.of_opens (hp : Opens source [] p) : Expresses source isBare p where
  fits hc h := .of_late (hp.carries.found hc h) (hp.moves.moves hc h)

theorem Expresses.of_tokens (hp : ∀ t, ExpressesFrom source t isBare p) :
    Expresses source isBare p where
  fits hc h := (hp _).fits hc rfl h

theorem Expresses.peek {f : Token → Reader Node}
    (hf : ∀ t, ExpressesFrom source t isBare (f t)) :
    Expresses source isBare (Grammar.peek >>= f) where
  fits hc h := by
    obtain ⟨t, c₁, ht, h⟩ := exists_of_bind_eq_some h
    cases ht
    exact (hf _).fits hc rfl h

theorem Expresses.bind {f : Node → Reader Node}
    [hp : Expresses source isBare p]
    (hextends : ∀ (t : Token) (n : Node), ExtendsFrom source t n (f n))
    (hf : ∀ n, Carries source false (imports n) (f n)) : Expresses source isBare (p >>= f) where
  fits hc h := by
    obtain ⟨n, c₁, hn, h⟩ := exists_of_bind_eq_some h
    have hfirst := hp.fits hc hn
    have hplace := hfirst.found.reading.place
    -- Nothing is added, or what is added makes the whole longer than every part of the first.
    rcases (hextends _ n).eq_or_moves hplace rfl h with ⟨rfl, rfl⟩ | hmoved
    · exact hfirst
    · exact .of_lt hfirst.found hfirst.moved ((hf n).found hplace h)
        (Nat.lt_of_le_of_lt hplace.last_le hmoved)

/-- An operand with what is behind it. -/
theorem Expresses.loop [Expresses source isBare p] {step : Node → Reader (Option Node)}
    (hcarries : ∀ n, Carries source false (imports n) (step n))
    (hextends : ∀ (t : Token) (n : Node), ExtendsFrom source t none (step n)) :
    Expresses source isBare (p >>= fun n ↦ repeatFrom n step) :=
  .bind (fun _ n ↦ (loop_repeatFrom hcarries hextends n).2 _) fun n ↦
    carries_repeatFrom hcarries n

/-- One expression, or several with commas between them. -/
theorem Expresses.commaSeparated [Expresses source isBare p] {f : List Node → Reader Node}
    (hone : ∀ n, f [n] = Pure.pure n) (hstays : ∀ ns, Stays (f ns))
    (hf : ∀ ns, Carries source false (imports ns) (f ns)) :
    Expresses source isBare (Grammar.commaSeparated p >>= f) := by
  unfold Grammar.commaSeparated
  simp only [bind_assoc, pure_bind]
  have hcarries (ns : List Node) : Carries source false (imports ns) (do
      if ← takeMark "," then return some ((← p) :: ns) else return none) :=
    .step fun _ ↦ .ite (.bind fun _ ↦ .pure) .pure
  refine .bind (fun t n ↦ ⟨fun hc ht h ↦ ?_⟩) fun n ↦ .grow hcarries fun _ ↦ (hf _).mono
  obtain ⟨reversed, c₁, hreversed, hrest⟩ := exists_of_bind_eq_some h
  cases (hstays _).stays hrest
  have hextends := (loop_repeatFrom hcarries inferInstance [n]).2 t
  rcases hextends.eq_or_moves hc ht hreversed with ⟨rfl, rfl⟩ | hmoved
  · rw [List.reverse_singleton, hone] at hrest
    cases hrest
    exact .inl ⟨rfl, rfl⟩
  · exact .inr hmoved

namespace ExpressesFrom

theorem of_opens (hp : Opens source [] p) : ExpressesFrom source t isBare p where
  fits hc _ h := (Expresses.of_opens hp).fits hc h

theorem first {p : Reader α} {f : α → Reader Node} (hp : MovesFrom source t p) [Steps source p]
    (hf : ∀ a, Carries source false [] (f a)) : ExpressesFrom source t isBare (p >>= f) where
  fits hc ht h := by
    obtain ⟨a, c₁, hp', hf'⟩ := exists_of_bind_eq_some h
    have hfirst := Steps.reading hc hp'
    have hmoved := hp.moves hc ht hp'
    have hnext := (hf a).found hfirst.place hf'
    exact .of_late (.behind hfirst hmoved hnext)
      (Nat.lt_of_lt_of_le hmoved hnext.reading.last_le)

theorem stay {p : Reader α} {f : α → Reader Node} [hp : Stays p]
    (hf : ∀ a, ExpressesFrom source t isBare (f a)) : ExpressesFrom source t isBare (p >>= f) where
  fits hc ht h := by
    obtain ⟨a, c₁, ha, h⟩ := exists_of_bind_eq_some h
    cases hp.stays ha
    exact (hf a).fits hc ht h

theorem ite {b : Prop} [Decidable b] (hp : b → ExpressesFrom source t isBare p)
    (hq : ExpressesFrom source t isBare q) :
    ExpressesFrom source t isBare (if b then p else q) := by
  split
  · next hb => exact hp hb
  · exact hq

theorem takeMark {s : String} (hp : Carries source false [] p)
    (hq : ExpressesFrom source t isBare q) :
    ExpressesFrom source t isBare (Grammar.takeMark s >>= fun b ↦ if b = true then p else q) where
  fits hc ht h := by
    obtain ⟨b, c₁, hb, h⟩ := exists_of_bind_eq_some h
    rw [takeMark_eq, Option.some.injEq] at hb
    split at hb
    · next hmark =>
      cases hb
      have hmoved := hc.token.room (isWritten_of_isMark hmark)
      have hnext := hp.found (Reading.advance hc).place h
      exact .of_late (.behind (.advance hc) hmoved hnext)
        (Nat.lt_of_lt_of_le hmoved hnext.reading.last_le)
    · cases hb
      exact hq.fits hc ht h

/-- A rule that starts with another one, unless that is not taken. -/
theorem choice [HasImports α] {p : Reader (Option α)} {f : Option α → Reader Node}
    [hp : Carries source true [] p] (hextends : ExtendsFrom source t none p)
    (hnone : ExpressesFrom source t isBare (f none)) (hrest : Carries source false [] (f none))
    (hsome : ∀ a, Carries source true (imports a) (f (some a))) :
    ExpressesFrom source t isBare (p >>= f) where
  fits {ctx c c' n} hc ht h := by
    obtain ⟨o, c₁, ho, hnext⟩ := exists_of_bind_eq_some h
    have hfirst := hp.found hc ho
    have hplace := hfirst.reading.place
    rcases hextends.eq_or_moves hc ht ho with ⟨rfl, rfl⟩ | hmoved
    · exact hnone.fits hplace ht hnext
    · have hfound : Found source true [] c (imports n) c' := by
        cases o with
        | none => exact .behind hfirst.reading hmoved (hrest.found hplace hnext)
        | some a =>
          rw [imports_some] at hfirst
          exact hfirst.trans ((hsome a).found hplace hnext)
      have hafter : Steps source (f o) := by
        cases o with
        | none => exact hrest.steps
        | some a => exact (hsome a).steps
      exact .of_late hfound (Nat.lt_of_lt_of_le hmoved (hafter.reading hplace hnext).last_le)

end ExpressesFrom

end Expresses

end Downlevel.Script.Grammar
