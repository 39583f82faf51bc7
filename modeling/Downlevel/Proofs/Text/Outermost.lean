import Downlevel.Text.Edit
import Mathlib.Data.List.Basic

/-!
# Outermost edits

Edits are sorted and then filtered in one pass that only looks at the end of the last edit kept.
If the spans of the edits are disjoint or nested and differ from each other, what the pass keeps are
exactly the edits that are not nested in another one. Containment of an edit that takes no room is
half open: at the end of another edit it stands behind it.

The pass is followed with the set of edits already seen. What carries the induction is that an edit
still to come starts before the limit exactly if it is nested in one of those seen.
-/

namespace Downlevel

/-! ## Spans side by side and within each other -/

/-- Neither span reaches into the other. -/
def Span.Apart (s t : Span) : Prop := s.stop ≤ t.start ∨ t.stop ≤ s.start

/-- A span starts inside another one and does not reach beyond it. -/
def Span.Nested (s t : Span) : Prop := t.start ≤ s.start ∧ s.start < t.stop ∧ s.stop ≤ t.stop

theorem Span.ne_iff {s t : Span} : s ≠ t ↔ s.start ≠ t.start ∨ s.stop ≠ t.stop := by
  rw [Ne, Span.mk.injEq, not_and_or]

instance (s t : Span) : Decidable (s.Apart t) := inferInstanceAs (Decidable (_ ∨ _))

instance (s t : Span) : Decidable (s.Nested t) := inferInstanceAs (Decidable (_ ∧ _ ∧ _))

theorem Span.Apart.symm {s t : Span} (h : s.Apart t) : t.Apart s := Or.symm h

/-- A span that takes room is not nested in one that stands beside it. -/
theorem Span.Apart.not_nested {s t : Span} (h : s.Apart t) (hs : s.start < s.stop) :
    ¬s.Nested t := by
  unfold Span.Apart at h
  unfold Span.Nested
  omega

theorem Span.Apart.ne {s t : Span} (h : s.Apart t) (hs : s.start < s.stop) : s ≠ t := by
  rintro rfl
  unfold Span.Apart at h
  omega

theorem Span.Nested.trans {s t u : Span} (hst : s.Nested t) (htu : t.Nested u) : s.Nested u := by
  unfold Span.Nested at *
  omega

namespace Edit

/-! ## The order of edits -/

theorem comesFirst_iff {a b : Edit} :
    comesFirst a b = true ↔
      a.span.start < b.span.start ∨ a.span.start = b.span.start ∧ b.span.stop ≤ a.span.stop := by
  simp [comesFirst]

theorem comesFirst_trans (a b c : Edit) (hab : comesFirst a b) (hbc : comesFirst b c) :
    comesFirst a c := by
  rw [comesFirst_iff] at *
  omega

theorem comesFirst_total (a b : Edit) : comesFirst a b || comesFirst b a := by
  rw [Bool.or_eq_true, comesFirst_iff, comesFirst_iff]
  omega

theorem pairwise_sorted (edits : List Edit) :
    (edits.mergeSort comesFirst).Pairwise fun a b ↦ comesFirst a b = true :=
  List.pairwise_mergeSort comesFirst_trans comesFirst_total edits

/-! ## Ordered edits -/

/-- Edits in order of the text, each behind the one before, the first at or behind a limit. -/
def Ordered : Nat → List Edit → Prop
  | _, [] => True
  | limit, e :: es => limit ≤ e.span.start ∧ Ordered e.span.stop es

theorem ordered_keep (limit : Nat) (es : List Edit) : Ordered limit (keep limit es) := by
  induction es generalizing limit with
  | nil => trivial
  | cons e es ih =>
    rw [keep]
    split
    · next h => exact ⟨h, ih _⟩
    · exact ih _

theorem ordered_outermost (edits : List Edit) : Ordered 0 (outermost edits) :=
  ordered_keep 0 _

theorem keep_sublist (limit : Nat) (es : List Edit) : (keep limit es).Sublist es := by
  induction es generalizing limit with
  | nil => exact List.Sublist.refl _
  | cons e es ih =>
    rw [keep]
    split
    · exact (ih _).cons_cons e
    · exact (ih _).cons e

theorem mem_of_mem_outermost {edits : List Edit} {e : Edit} (h : e ∈ outermost edits) :
    e ∈ edits :=
  List.mem_mergeSort.mp ((keep_sublist 0 _).mem h)

/-! ## What is kept -/

/-- Spans that are disjoint or nested, and differ from each other. -/
structure Laminar (edits : List Edit) : Prop where
  start_le_stop : ∀ e ∈ edits, e.span.start ≤ e.span.stop
  distinct : edits.Pairwise fun a b ↦ a.span ≠ b.span
  apart_or_nested : ∀ a ∈ edits, ∀ b ∈ edits,
    a.span.Apart b.span ∨ a.span.Nested b.span ∨ b.span.Nested a.span

/-- An edit that is not nested in another one of a list. -/
def IsOutermost (edits : List Edit) (e : Edit) : Prop :=
  ∀ f ∈ edits, f.span ≠ e.span → ¬e.span.Nested f.span

instance (edits : List Edit) : DecidablePred (IsOutermost edits) := fun _ ↦
  inferInstanceAs (Decidable (∀ _ ∈ _, _))

/-- Of two edits in order, the later one starts inside the earlier one exactly if it is nested in
it. -/
theorem start_lt_stop_iff_nested {e f : Edit} (hfirst : comesFirst e f = true)
    (hf : f.span.start ≤ f.span.stop) (hne : e.span ≠ f.span)
    (hlam : e.span.Apart f.span ∨ e.span.Nested f.span ∨ f.span.Nested e.span) :
    f.span.start < e.span.stop ↔ f.span.Nested e.span := by
  rw [comesFirst_iff] at hfirst
  rw [Span.ne_iff] at hne
  unfold Span.Apart Span.Nested at *
  omega

theorem not_nested_of_comesFirst {e f : Edit} (hfirst : comesFirst e f = true)
    (hne : f.span ≠ e.span) : ¬e.span.Nested f.span := by
  rw [comesFirst_iff] at hfirst
  rw [Span.ne_iff] at hne
  unfold Span.Nested
  omega

/-- One pass over sorted edits behind those already seen: the limit divides what is to come into
what is nested in an edit seen and what is not. -/
theorem keep_eq_filter {es : List Edit} (seen : List Edit) (limit : Nat)
    (hlam : Laminar (seen ++ es))
    (hsorted : es.Pairwise fun a b ↦ comesFirst a b = true)
    (hseen : ∀ s ∈ seen, ∀ e ∈ es, comesFirst s e = true)
    (hlimit : ∀ e ∈ es, e.span.start < limit ↔ ∃ s ∈ seen, e.span.Nested s.span) :
    keep limit es = es.filter fun e ↦ decide (IsOutermost (seen ++ es) e) := by
  induction es generalizing seen limit with
  | nil => rfl
  | cons e es ih =>
    have happend : seen ++ e :: es = (seen ++ [e]) ++ es := by simp
    have hmem : ∀ {f}, f ∈ es → f ∈ seen ++ e :: es := fun hf ↦
      List.mem_append_right _ (List.mem_cons_of_mem e hf)
    have hself : e ∈ seen ++ e :: es := List.mem_append_right _ List.mem_cons_self
    rw [List.pairwise_cons] at hsorted
    obtain ⟨hfirst, hsorted⟩ := hsorted
    have hdistinct := List.pairwise_append.mp hlam.distinct
    have hne : ∀ f ∈ es, e.span ≠ f.span := (List.pairwise_cons.mp hdistinct.2.1).1
    have hnested : ∀ f ∈ es, (f.span.start < e.span.stop ↔ f.span.Nested e.span) := fun f hf ↦
      start_lt_stop_iff_nested (hfirst f hf) (hlam.start_le_stop f (hmem hf)) (hne f hf)
        (hlam.apart_or_nested e hself f (hmem hf))
    have hseen' : ∀ s ∈ seen ++ [e], ∀ f ∈ es, comesFirst s f = true := by
      intro s hs f hf
      rcases List.mem_append.mp hs with hs | hs
      · exact hseen s hs f (List.mem_cons_of_mem e hf)
      · rw [List.mem_singleton.mp hs]
        exact hfirst f hf
    have hexists : ∀ f : Edit, (∃ s ∈ seen ++ [e], f.span.Nested s.span)
        ↔ (∃ s ∈ seen, f.span.Nested s.span) ∨ f.span.Nested e.span := by
      intro f
      simp only [List.mem_append, List.mem_singleton, or_and_right, exists_or, exists_eq_left]
    rw [keep, List.filter_cons, happend]
    by_cases hle : limit ≤ e.span.start
    · -- No edit seen reaches up to `e`, so from here on `e` alone decides.
      have hkept : IsOutermost (seen ++ e :: es) e := by
        intro f hf hfe hnest
        rcases List.mem_append.mp hf with hf | hf
        · exact absurd ((hlimit e List.mem_cons_self).mpr ⟨f, hf, hnest⟩) (by omega)
        · rcases List.mem_cons.mp hf with rfl | hf
          · exact hfe rfl
          · exact not_nested_of_comesFirst (hfirst f hf) hfe hnest
      rw [happend] at hkept
      rw [if_pos hle, if_pos (decide_eq_true hkept)]
      refine congrArg (e :: ·) (ih _ _ (by rwa [← happend]) hsorted hseen' fun f hf ↦ ?_)
      rw [hexists, hnested f hf]
      refine ⟨Or.inr, fun h ↦ h.elim (fun hs ↦ ?_) id⟩
      have hlt := (hlimit f (List.mem_cons_of_mem e hf)).mpr hs
      have hef := comesFirst_iff.mp (hfirst f hf)
      omega
    · -- What is nested in `e` is nested in the edit seen in which `e` is nested.
      obtain ⟨s, hs, hes⟩ := (hlimit e List.mem_cons_self).mp (by omega)
      have hdropped : ¬IsOutermost (seen ++ e :: es) e := fun h ↦
        h s (List.mem_append_left _ hs) (hdistinct.2.2 s hs e List.mem_cons_self) hes
      rw [happend] at hdropped
      rw [if_neg hle, if_neg (by simpa using hdropped)]
      refine ih _ _ (by rwa [← happend]) hsorted hseen' fun f hf ↦ ?_
      rw [hexists, hlimit f (List.mem_cons_of_mem e hf)]
      exact ⟨Or.inl, fun h ↦ h.elim id fun hfe ↦ ⟨s, hs, hfe.trans hes⟩⟩

theorem Laminar.perm {es fs : List Edit} (h : Laminar es) (hp : es.Perm fs) : Laminar fs where
  start_le_stop e he := h.start_le_stop e (hp.mem_iff.mpr he)
  distinct := (hp.pairwise_iff fun hab ↦ hab.symm).mp h.distinct
  apart_or_nested a ha b hb :=
    h.apart_or_nested a (hp.mem_iff.mpr ha) b (hp.mem_iff.mpr hb)

/-- Of edits whose spans are disjoint or nested, those are carried out that are not nested in
another one. -/
theorem outermost_eq_filter {edits : List Edit} (h : Laminar edits) :
    outermost edits
      = (edits.mergeSort comesFirst).filter fun e ↦ decide (IsOutermost edits e) := by
  have hperm := List.mergeSort_perm edits comesFirst
  have hkeep := keep_eq_filter [] 0 (h.perm hperm.symm) (pairwise_sorted edits) (by simp)
    (by simp)
  rw [outermost, hkeep]
  refine List.filter_congr fun e _ ↦ decide_eq_decide.mpr ?_
  rw [List.nil_append]
  exact ⟨fun he f hf ↦ he f (hperm.mem_iff.mpr hf), fun he f hf ↦ he f (hperm.mem_iff.mp hf)⟩

theorem outermost_perm {edits : List Edit} (h : Laminar edits) :
    (outermost edits).Perm (edits.filter fun e ↦ decide (IsOutermost edits e)) := by
  rw [outermost_eq_filter h]
  exact (List.mergeSort_perm edits comesFirst).filter _

/-- Edits that are carried out start at different offsets, because of two that start together one is
nested in the other. -/
theorem Laminar.starts_ne {edits : List Edit} (h : Laminar edits) :
    (outermost edits).Pairwise fun e f ↦ e.span.start ≠ f.span.start := by
  have hperm := outermost_perm h
  have hdistinct : (outermost edits).Pairwise fun e f ↦ e.span ≠ f.span :=
    (hperm.pairwise_iff fun hef ↦ hef.symm).mpr (h.distinct.filter _)
  refine hdistinct.imp_of_mem fun {e f} he hf hne heq ↦ ?_
  obtain ⟨he, houter⟩ := List.mem_filter.mp (hperm.mem_iff.mp he)
  obtain ⟨hf, houter'⟩ := List.mem_filter.mp (hperm.mem_iff.mp hf)
  have hef := of_decide_eq_true houter f hf fun hspan ↦ hne hspan.symm
  have hfe := of_decide_eq_true houter' e he hne
  have hle := h.start_le_stop e he
  have hle' := h.start_le_stop f hf
  have hspans := Span.ne_iff.mp hne
  unfold Span.Nested at hef hfe
  omega

end Edit

end Downlevel
