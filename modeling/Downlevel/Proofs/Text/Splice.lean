import Downlevel.Proofs.Text.Boundary
import Downlevel.Proofs.Text.Outermost

/-!
# Splicing ordered edits

What a text becomes when ordered edits between boundaries are carried out. Everything is stated for
a slice of the text, because a splice goes on with what is left behind each edit. A splice falls
apart at every offset that no edit spans, so what the edits leave untouched stands in it in the order
of the text. If no edit brings in more line feeds than it takes out, it has all line feeds of the
text only if every edit keeps its own.
-/

namespace Downlevel.Edit

open Text

variable {source : List Char} {base stop p : Nat} {es fs : List Edit}

/-! ## Parts of ordered edits -/

theorem Ordered.start_le {e : Edit} (h : Ordered base es) (he : e ∈ es)
    (hspan : ∀ f ∈ es, f.span.start ≤ f.span.stop) : base ≤ e.span.start := by
  induction es generalizing base with
  | nil => simp at he
  | cons f fs ih =>
    rcases List.mem_cons.mp he with rfl | he
    · exact h.1
    · have hf := hspan f List.mem_cons_self
      have hrest := ih h.2 he fun g hg ↦ hspan g (List.mem_cons_of_mem f hg)
      have hfirst := h.1
      omega

/-- Ordered edits are those that end up to an offset, and then the others. -/
theorem Ordered.filter_append_filter (h : Ordered base es)
    (hspan : ∀ e ∈ es, e.span.start ≤ e.span.stop) (p : Nat) :
    (es.filter fun e ↦ decide (e.span.stop ≤ p)) ++ (es.filter fun e ↦ !decide (e.span.stop ≤ p))
      = es := by
  induction es generalizing base with
  | nil => rfl
  | cons e es ih =>
    have hspan' : ∀ f ∈ es, f.span.start ≤ f.span.stop := fun f hf ↦
      hspan f (List.mem_cons_of_mem e hf)
    by_cases hp : e.span.stop ≤ p
    · simp only [List.filter_cons, hp, decide_true, if_true, Bool.not_true, Bool.false_eq_true,
        if_false, List.cons_append, ih h.2 hspan']
    · have hlater : ∀ f ∈ es, ¬f.span.stop ≤ p := by
        intro f hf
        have hstart := h.2.start_le hf hspan'
        have hf := hspan' f hf
        omega
      have hnone : (es.filter fun f ↦ decide (f.span.stop ≤ p)) = [] := by
        simpa [List.filter_eq_nil_iff] using hlater
      have hall : (es.filter fun f ↦ !decide (f.span.stop ≤ p)) = es := by
        simpa [List.filter_eq_self] using hlater
      simp only [List.filter_cons, hp, decide_false, Bool.false_eq_true, if_false, Bool.not_false,
        if_true, hnone, hall, List.nil_append]

theorem Ordered.of_append (h : Ordered base (es ++ fs)) : Ordered base es := by
  induction es generalizing base with
  | nil => trivial
  | cons e es ih => exact ⟨h.1, ih h.2⟩

theorem Ordered.of_append_right (h : Ordered base (es ++ fs)) : ∃ limit, Ordered limit fs := by
  induction es generalizing base with
  | nil => exact ⟨base, h⟩
  | cons e es ih => exact ih h.2

theorem Ordered.of_le (h : Ordered base es) (hle : ∀ e ∈ es, p ≤ e.span.start) : Ordered p es := by
  cases es with
  | nil => trivial
  | cons e es => exact ⟨hle e List.mem_cons_self, h.2⟩

/-! ## Splices -/

/-- Edits that cover whole characters of a text, up to an offset. -/
def Fit (source : List Char) (stop : Nat) (es : List Edit) : Prop :=
  ∀ e ∈ es, e.span.Covers source ∧ e.span.stop ≤ stop

theorem Fit.head {e : Edit} (h : Fit source stop (e :: es)) :
    e.span.Covers source ∧ e.span.stop ≤ stop :=
  h e List.mem_cons_self

theorem Fit.tail {e : Edit} (h : Fit source stop (e :: es)) : Fit source stop es := fun f hf ↦
  h f (List.mem_cons_of_mem e hf)

theorem splice_cons_slice {e : Edit} (hbase : IsBoundary source base)
    (hstop : IsBoundary source stop) (hord : Ordered base (e :: es))
    (hfit : Fit source stop (e :: es)) :
    splice base (e :: es) (slice source ⟨base, stop⟩)
      = slice source ⟨base, e.span.start⟩ ++ e.text.toList
        ++ splice e.span.stop es (slice source ⟨e.span.stop, stop⟩) := by
  obtain ⟨⟨hle, hs, ht⟩, hle'⟩ := hfit.head
  rw [splice, takeBytes_slice hbase hs hstop hord.1 (by omega),
    dropBytes_slice hbase ht hstop (by have := hord.1; omega) hle']

/-- A splice falls apart at an offset that no edit spans. -/
theorem splice_append (hbase : IsBoundary source base) (hp : IsBoundary source p)
    (hstop : IsBoundary source stop) (hbp : base ≤ p) (hps : p ≤ stop)
    (hord : Ordered base (es ++ fs)) (hfit : Fit source stop (es ++ fs))
    (hes : ∀ e ∈ es, e.span.stop ≤ p) (hfs : ∀ f ∈ fs, p ≤ f.span.start) :
    splice base (es ++ fs) (slice source ⟨base, stop⟩)
      = splice base es (slice source ⟨base, p⟩) ++ splice p fs (slice source ⟨p, stop⟩) := by
  induction es generalizing base with
  | nil =>
    cases fs with
    | nil => exact (slice_append_slice hbase hp hstop hbp hps).symm
    | cons f fs =>
      obtain ⟨⟨_, hs, _⟩, _⟩ := hfit.head
      have hpf := hfs f List.mem_cons_self
      rw [List.nil_append, splice_cons_slice hbase hstop hord hfit,
        splice_cons_slice hp hstop ⟨hpf, hord.2⟩ hfit, splice,
        ← slice_append_slice hbase hp hs hbp hpf]
      simp only [List.append_assoc]
  | cons e es ih =>
    obtain ⟨⟨_, _, ht⟩, _⟩ := hfit.head
    have hep := hes e List.mem_cons_self
    have hfit' : Fit source p (e :: es) := fun f hf ↦
      ⟨(hfit f (List.mem_append_left fs hf)).1, hes f hf⟩
    have hfront : Ordered base (e :: es) := hord.of_append
    rw [List.cons_append] at hord hfit ⊢
    rw [splice_cons_slice hbase hstop hord hfit,
      ih ht hep hord.2 hfit.tail fun f hf ↦ hes f (List.mem_cons_of_mem e hf),
      splice_cons_slice hbase hp hfront hfit']
    simp only [List.append_assoc]

theorem Ordered.filter_front (hord : Ordered base es)
    (hspan : ∀ e ∈ es, e.span.start ≤ e.span.stop) (p : Nat) :
    Ordered base (es.filter fun e ↦ decide (e.span.stop ≤ p)) := by
  rw [← hord.filter_append_filter hspan p] at hord
  exact hord.of_append

/-- The edits behind a span that none of them reaches. -/
theorem Ordered.filter_behind {s : Span} (hord : Ordered base es)
    (hspan : ∀ e ∈ es, e.span.start ≤ e.span.stop) (hapart : ∀ e ∈ es, e.span.Apart s) :
    Ordered s.stop (es.filter fun e ↦ !decide (e.span.stop ≤ s.start)) := by
  rw [← hord.filter_append_filter hspan s.start] at hord
  obtain ⟨limit, hbehind⟩ := hord.of_append_right
  refine hbehind.of_le fun e he ↦ ?_
  obtain ⟨he, hstop⟩ := List.mem_filter.mp he
  exact (hapart e he).resolve_left (by simpa using hstop)

/-- What edits make of the text in front of an offset. -/
def ahead (source : List Char) (base : Nat) (es : List Edit) (p : Nat) : List Char :=
  splice base (es.filter fun e ↦ decide (e.span.stop ≤ p)) (slice source ⟨base, p⟩)

/-- What edits leave untouched stands in the splice, between what they make of the text before it
and what they make of the text behind it. -/
theorem splice_untouched {s : Span} (hbase : IsBoundary source base)
    (hstop : IsBoundary source stop) (hord : Ordered base es) (hfit : Fit source stop es)
    (hs : s.Covers source) (hbs : base ≤ s.start) (hss : s.stop ≤ stop)
    (hapart : ∀ e ∈ es, e.span.Apart s) :
    splice base es (slice source ⟨base, stop⟩)
      = ahead source base es s.start
        ++ (slice source s
          ++ splice s.stop (es.filter fun e ↦ !decide (e.span.stop ≤ s.start))
            (slice source ⟨s.stop, stop⟩)) := by
  obtain ⟨hle, hfirst, hlast⟩ := hs
  have hspan : ∀ e ∈ es, e.span.start ≤ e.span.stop := fun e he ↦ (hfit e he).1.start_le_stop
  have hbehind := hord.filter_behind hspan hapart
  have hlater : ∀ e ∈ es.filter (fun e ↦ !decide (e.span.stop ≤ s.start)),
      s.stop ≤ e.span.start := fun e he ↦
    hbehind.start_le he fun f hf ↦ hspan f (List.mem_filter.mp hf).1
  have hsplit := hord.filter_append_filter hspan s.start
  have hcut := splice_append hbase hfirst hstop hbs (Nat.le_trans hle hss)
    (by rw [hsplit]; exact hord) (by rw [hsplit]; exact hfit)
    (fun e he ↦ by simpa using (List.mem_filter.mp he).2) fun e he ↦ Nat.le_trans hle (hlater e he)
  -- Behind the span the splice is cut a second time, with no edits in the span.
  have hordered : Ordered s.start ([] ++ es.filter fun e ↦ !decide (e.span.stop ≤ s.start)) :=
    hbehind.of_le fun e he ↦ Nat.le_trans hle (hlater e he)
  have hrest := splice_append hfirst hlast hstop hle hss hordered
    (fun e he ↦ hfit e (List.mem_filter.mp he).1) nofun hlater
  rw [hsplit] at hcut
  rw [hcut]
  exact congrArg _ hrest

/-- Texts stand in a text whose first line has a number, one behind the other, each on the line of
its own number. -/
def StandAt : Nat → List (Nat × List Char) → List Char → Prop
  | _, [], _ => True
  | line, (k, t) :: ts, text =>
    ∃ before behind, text = before ++ (t ++ behind) ∧ k = line + newlines before ∧
      StandAt (k + newlines t) ts behind

theorem StandAt.append_left {front text : List Char} {line : Nat} {ts : List (Nat × List Char)}
    (h : StandAt (line + newlines front) ts text) : StandAt line ts (front ++ text) := by
  cases ts with
  | nil => trivial
  | cons t ts =>
    obtain ⟨before, behind, rfl, hline, hrest⟩ := h
    refine ⟨front ++ before, behind, (List.append_assoc ..).symm, ?_, hrest⟩
    rw [hline, newlines_append, Nat.add_assoc]

theorem StandAt.shift {text : List Char} {line : Nat} {ts : List (Nat × List Char)}
    (h : StandAt line ts text) (k : Nat) :
    StandAt (k + line) (ts.map fun t ↦ (k + t.1, t.2)) text := by
  induction ts generalizing line text with
  | nil => trivial
  | cons t ts ih =>
    obtain ⟨before, behind, rfl, hline, hrest⟩ := h
    refine ⟨before, behind, rfl, by rw [hline, Nat.add_assoc], ?_⟩
    rw [Nat.add_assoc]
    exact ih hrest

/-- An edit that brings in as many line feeds as it takes out. -/
def KeepsLines (source : List Char) (e : Edit) : Prop :=
  newlines e.text.toList = newlines (slice source e.span)

/-- If no edit brings in more line feeds than it takes out, a splice has at most the line feeds of
the text, and it has all of them exactly if every edit keeps its own. -/
theorem newlines_splice (hbase : IsBoundary source base) (hstop : IsBoundary source stop)
    (hle : base ≤ stop) (hord : Ordered base es) (hfit : Fit source stop es)
    (hshrink : ∀ e ∈ es, newlines e.text.toList ≤ newlines (slice source e.span)) :
    newlines (splice base es (slice source ⟨base, stop⟩)) ≤ newlines (slice source ⟨base, stop⟩) ∧
      (newlines (splice base es (slice source ⟨base, stop⟩)) = newlines (slice source ⟨base, stop⟩)
        ↔ ∀ e ∈ es, e.KeepsLines source) := by
  induction es generalizing base with
  | nil => exact ⟨Nat.le_refl _, fun _ ↦ nofun, fun _ ↦ rfl⟩
  | cons e es ih =>
    obtain ⟨⟨hse, hs, ht⟩, hts⟩ := hfit.head
    have hbs := hord.1
    obtain ⟨hrest, hiff⟩ := ih ht hts hord.2 hfit.tail fun f hf ↦
      hshrink f (List.mem_cons_of_mem e hf)
    have hwhole := newlines_slice_add hbase hs hstop hbs (by omega)
    have hbehind := newlines_slice_add hs ht hstop hse hts
    have hspan : slice source ⟨e.span.start, e.span.stop⟩ = slice source e.span := rfl
    have hown := hshrink e List.mem_cons_self
    rw [hspan] at hbehind
    rw [splice_cons_slice hbase hstop hord hfit, newlines_append, newlines_append,
      List.forall_mem_cons, ← hiff, KeepsLines]
    omega

end Downlevel.Edit
