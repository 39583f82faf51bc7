import Downlevel.Proofs.Text.Splice
import Mathlib.Data.List.Pairwise

/-!
# What edits leave for a span

Edited text falls into three parts at a span that no edit crosses: what the edits make of the text
in front of it, what they leave for it, and what they make of the text behind it. For the span of an
edit that is carried out that is the text of the edit. For a wider span it is what the edits inside
it make of its text, and they may then be applied to the cut of the text alone.
-/

namespace Downlevel.Edit

open Text

variable {source : List Char} {base stop : Nat} {es fs : List Edit} {e : Edit} {s : Span}

/-! ## Ordered edits in a row -/

theorem Ordered.pairwise (h : Ordered base es) (hspan : ∀ e ∈ es, e.span.start ≤ e.span.stop) :
    es.Pairwise fun e f ↦ e.span.stop ≤ f.span.start := by
  induction es generalizing base with
  | nil => exact List.Pairwise.nil
  | cons e es ih =>
    have hspan' : ∀ f ∈ es, f.span.start ≤ f.span.stop := fun f hf ↦
      hspan f (List.mem_cons_of_mem e hf)
    exact List.pairwise_cons.mpr ⟨fun f hf ↦ h.2.start_le hf hspan', ih h.2 hspan'⟩

/-- Edits one behind the other are ordered behind any offset that none of them starts before. -/
theorem Ordered.of_pairwise (h : es.Pairwise fun e f ↦ e.span.stop ≤ f.span.start)
    (hbase : ∀ e ∈ es, base ≤ e.span.start) : Ordered base es := by
  induction es generalizing base with
  | nil => trivial
  | cons e es ih =>
    rw [List.pairwise_cons] at h
    exact ⟨hbase e List.mem_cons_self, ih h.2 h.1⟩

/-! ## Edits carried out -/

/-- What edits make of the text behind an offset. -/
def behind (source : List Char) (stop : Nat) (es : List Edit) (p : Nat) : List Char :=
  splice p (es.filter fun e ↦ decide (p ≤ e.span.start)) (slice source ⟨p, stop⟩)

/-- Edits of a part of a text leave a text for a span in it: it stands between what they make of the
text in front of the span and what they make of the text behind it. -/
def Leaves (source : List Char) (part : Span) (es : List Edit) (s : Span) (text : List Char) :
    Prop :=
  apply part.start es (slice source part)
    = ahead source part.start (outermost es) s.start
      ++ (text ++ behind source part.stop (outermost es) s.stop)

/-- A splice falls apart at each of its edits. -/
theorem splice_append_cons {front back : List Edit} (hbase : IsBoundary source base)
    (hstop : IsBoundary source stop) (hord : Ordered base (front ++ e :: back))
    (hfit : Fit source stop (front ++ e :: back)) :
    splice base (front ++ e :: back) (slice source ⟨base, stop⟩)
      = splice base front (slice source ⟨base, e.span.start⟩)
        ++ (e.text.toList ++ splice e.span.stop back (slice source ⟨e.span.stop, stop⟩)) := by
  have hspan : ∀ f ∈ front ++ e :: back, f.span.start ≤ f.span.stop := fun f hf ↦
    (hfit f hf).1.start_le_stop
  have hmem : e ∈ front ++ e :: back := List.mem_append_right front List.mem_cons_self
  have hbe := hord.start_le hmem hspan
  obtain ⟨hcovers, hes⟩ := hfit e hmem
  obtain ⟨-, hback, hfront⟩ := List.pairwise_append.mp (hord.pairwise hspan)
  rw [List.pairwise_cons] at hback
  have hstart : ∀ f ∈ e :: back, e.span.start ≤ f.span.start := by
    intro f hf
    rcases List.mem_cons.mp hf with rfl | hf
    · exact Nat.le_refl _
    · exact Nat.le_trans hcovers.start_le_stop (hback.1 f hf)
  have htail : Fit source stop (e :: back) := fun f hf ↦ hfit f (List.mem_append_right front hf)
  have hordtail : Ordered e.span.start (e :: back) :=
    ⟨Nat.le_refl _, (Ordered.of_pairwise hback.2 hback.1)⟩
  rw [splice_append hbase hcovers.start_isBoundary hstop hbe
      (Nat.le_trans hcovers.start_le_stop hes) hord hfit
      (fun f hf ↦ hfront f hf e List.mem_cons_self) hstart,
    splice_cons_slice hcovers.start_isBoundary hstop hordtail htail, slice_self, List.nil_append]

/-- A splice falls apart at an edit that takes room. -/
theorem splice_mem (hbase : IsBoundary source base) (hstop : IsBoundary source stop)
    (hord : Ordered base es) (hfit : Fit source stop es) (he : e ∈ es)
    (hroom : e.span.start < e.span.stop) :
    splice base es (slice source ⟨base, stop⟩)
      = ahead source base es e.span.start
        ++ (e.text.toList ++ behind source stop es e.span.stop) := by
  have hspan : ∀ f ∈ es, f.span.start ≤ f.span.stop := fun f hf ↦ (hfit f hf).1.start_le_stop
  have hpairwise := hord.pairwise hspan
  obtain ⟨front, back, rfl⟩ := List.append_of_mem he
  obtain ⟨-, hback, hfront⟩ := List.pairwise_append.mp hpairwise
  rw [List.pairwise_cons] at hback
  have hfront' : ∀ f ∈ front, f.span.stop ≤ e.span.start := fun f hf ↦
    hfront f hf e List.mem_cons_self
  -- The edits in front of `e` are those that end up to its start, and so on behind it.
  have hahead : (front ++ e :: back).filter (fun f ↦ decide (f.span.stop ≤ e.span.start)) = front := by
    rw [List.filter_append, List.filter_eq_self.mpr (by simpa using hfront'),
      List.filter_eq_nil_iff.mpr, List.append_nil]
    intro f hf
    have hle := hspan f (List.mem_append_right front hf)
    rcases List.mem_cons.mp hf with rfl | hf
    · simpa using hroom
    · have hbehind := hback.1 f hf
      simp only [decide_eq_true_eq]
      omega
  have hbehind : (front ++ e :: back).filter (fun f ↦ decide (e.span.stop ≤ f.span.start)) = back := by
    rw [List.filter_append, List.filter_cons_of_neg (by simpa using hroom),
      List.filter_eq_nil_iff.mpr, List.nil_append, List.filter_eq_self.mpr (by simpa using hback.1)]
    intro f hf
    have hf' := hfront' f hf
    have hle := hspan f (List.mem_append_left _ hf)
    simp only [decide_eq_true_eq]
    omega
  rw [ahead, hahead, behind, hbehind, splice_append_cons hbase hstop hord hfit]

theorem covers_whole (source : List Char) : Span.Covers ⟨0, width source⟩ source :=
  ⟨Nat.zero_le _, isBoundary_zero source, isBoundary_width source⟩

/-- Edits leave the text of an edit for its span, if it is carried out and takes room. -/
theorem leaves_of_mem {part : Span} (hpart : part.Covers source)
    (hbase : ∀ f ∈ es, part.start ≤ f.span.start) (hfit : Fit source part.stop es)
    (he : e ∈ outermost es) (hroom : e.span.start < e.span.stop) :
    Leaves source part es e.span e.text.toList := by
  have hord : Ordered part.start (outermost es) := (ordered_outermost es).of_le fun f hf ↦
    hbase f (mem_of_mem_outermost hf)
  exact splice_mem hpart.start_isBoundary hpart.stop_isBoundary hord
    (fun f hf ↦ hfit f (mem_of_mem_outermost hf)) he hroom

/-! ## Edits inside a span -/

/-- A splice falls apart at an offset that no edit crosses. -/
theorem splice_eq_ahead_behind {p : Nat} (hbase : IsBoundary source base) (hp : IsBoundary source p)
    (hstop : IsBoundary source stop) (hord : Ordered base es) (hfit : Fit source stop es)
    (hbp : base ≤ p) (hps : p ≤ stop) (hroom : ∀ e ∈ es, e.span.start < e.span.stop)
    (hcrosses : ∀ e ∈ es, e.span.stop ≤ p ∨ p ≤ e.span.start) :
    splice base es (slice source ⟨base, stop⟩) = ahead source base es p ++ behind source stop es p := by
  have hrest : es.filter (fun e ↦ !decide (e.span.stop ≤ p))
      = es.filter fun e ↦ decide (p ≤ e.span.start) := by
    refine List.filter_congr fun e he ↦ ?_
    have hroom := hroom e he
    have hcrosses := hcrosses e he
    rw [← decide_not, decide_eq_decide]
    omega
  have hsplit := hord.filter_append_filter (fun e he ↦ Nat.le_of_lt (hroom e he)) p
  rw [hrest] at hsplit
  have hcut := splice_append hbase hp hstop hbp hps (by rwa [hsplit]) (by rwa [hsplit])
    (fun e he ↦ of_decide_eq_true (List.mem_filter.mp he).2)
    (fun e he ↦ of_decide_eq_true (List.mem_filter.mp he).2)
  rwa [hsplit] at hcut

/-- A splice falls apart at a span that no edit crosses. -/
theorem splice_within (hbase : IsBoundary source base) (hstop : IsBoundary source stop)
    (hord : Ordered base es) (hfit : Fit source stop es) (hs : s.Covers source)
    (hbs : base ≤ s.start) (hss : s.stop ≤ stop)
    (hroom : ∀ e ∈ es, e.span.start < e.span.stop)
    (hwithin : ∀ e ∈ es, e.span.Nested s ∨ e.span.Apart s) :
    splice base es (slice source ⟨base, stop⟩)
      = ahead source base es s.start
        ++ (splice s.start (es.filter fun e ↦ decide (e.span.Nested s)) (slice source s)
          ++ behind source stop es s.stop) := by
  have hle := hs.start_le_stop
  unfold Span.Nested Span.Apart at *
  -- The edits that do not end in front of the span are those inside it, and then those behind it.
  let rest := es.filter fun e ↦ decide (s.start ≤ e.span.start)
  have hrest : ∀ e ∈ rest, e ∈ es ∧ s.start ≤ e.span.start := fun e he ↦
    (List.mem_filter.mp he).imp_right of_decide_eq_true
  have hordrest : Ordered s.start rest :=
    .of_pairwise ((hord.pairwise fun e he ↦ Nat.le_of_lt (hroom e he)).filter _) fun e he ↦
      (hrest e he).2
  have hcut := splice_eq_ahead_behind hbase hs.start_isBoundary hstop hord hfit hbs
    (Nat.le_trans hle hss) hroom fun e he ↦ by
      have hwithin := hwithin e he
      omega
  have hcutrest := splice_eq_ahead_behind hs.start_isBoundary hs.stop_isBoundary hstop hordrest
    (fun e he ↦ hfit e (hrest e he).1) hle hss (fun e he ↦ hroom e (hrest e he).1) fun e he ↦ by
      have hwithin := hwithin e (hrest e he).1
      omega
  -- What the second cut takes from `rest` is what the statement takes from all the edits.
  have hinside : rest.filter (fun e ↦ decide (e.span.stop ≤ s.stop))
      = es.filter fun e ↦ decide
        (s.start ≤ e.span.start ∧ e.span.start < s.stop ∧ e.span.stop ≤ s.stop) := by
    rw [List.filter_filter]
    refine List.filter_congr fun e he ↦ ?_
    have hroom := hroom e he
    rw [← Bool.decide_and, decide_eq_decide]
    omega
  have hbehind : rest.filter (fun e ↦ decide (s.stop ≤ e.span.start))
      = es.filter fun e ↦ decide (s.stop ≤ e.span.start) := by
    rw [List.filter_filter]
    refine List.filter_congr fun e _ ↦ ?_
    rw [← Bool.decide_and, decide_eq_decide]
    omega
  rw [ahead, hinside, behind, hbehind] at hcutrest
  rw [hcut]
  exact congrArg _ hcutrest

/-- Edits that take room and stand apart are all carried out. -/
theorem outermost_perm_of_apart (hapart : es.Pairwise fun e f ↦ e.span.Apart f.span)
    (hroom : ∀ e ∈ es, e.span.start < e.span.stop) : (outermost es).Perm es := by
  have : Std.Symm fun e f : Edit ↦ e.span.Apart f.span := ⟨fun _ _ h ↦ h.symm⟩
  have hlaminar : Laminar es := {
    start_le_stop := fun e he ↦ Nat.le_of_lt (hroom e he)
    distinct := hapart.imp_of_mem fun he _ h ↦ h.ne (hroom _ he)
    apart_or_nested := by
      intro e he f hf
      by_cases hef : e = f
      · subst hef
        have hroom := hroom e he
        unfold Span.Nested
        omega
      · exact .inl (hapart.forall he hf hef) }
  have hall : es.filter (fun e ↦ decide (IsOutermost es e)) = es := by
    refine List.filter_eq_self.mpr fun e he ↦ decide_eq_true fun f hf hne ↦ ?_
    exact (hapart.forall he hf fun hef ↦ hne (by rw [hef])).not_nested (hroom e he)
  have hperm := outermost_perm hlaminar
  rwa [hall] at hperm

/-- Edits that take room can be put one behind the other in one way only. -/
theorem eq_of_perm_of_inRow (hperm : es.Perm fs) (hroom : ∀ e ∈ es, e.span.start < e.span.stop)
    (hes : es.Pairwise fun e f ↦ e.span.stop ≤ f.span.start)
    (hfs : fs.Pairwise fun e f ↦ e.span.stop ≤ f.span.start) : es = fs := by
  refine List.Perm.eq_of_pairwise ?_ hes hfs hperm
  -- Two edits that take room are not each behind the other.
  intro e f he hf hef hfe
  have hroome := hroom e he
  have hroomf := hroom f (hperm.mem_iff.mpr hf)
  omega

theorem inRow_outermost (hroom : ∀ e ∈ es, e.span.start ≤ e.span.stop) :
    (outermost es).Pairwise fun e f ↦ e.span.stop ≤ f.span.start :=
  (ordered_outermost es).pairwise fun e he ↦ hroom e (mem_of_mem_outermost he)

/-- Edits that already stand one behind the other are carried out as they are. -/
theorem apply_eq_splice (hrow : es.Pairwise fun e f ↦ e.span.stop ≤ f.span.start)
    (hroom : ∀ e ∈ es, e.span.start < e.span.stop) (text : List Char) :
    apply base es text = splice base es text := by
  have hperm := outermost_perm_of_apart (hrow.imp .inl) hroom
  have hinRow := inRow_outermost fun e he ↦ Nat.le_of_lt (hroom e he)
  rw [apply, eq_of_perm_of_inRow hperm (fun e he ↦ hroom e (hperm.mem_iff.mp he)) hinRow hrow]

/-- Edits that stand apart can be chosen before or after they are put in order. -/
theorem outermost_filter (hapart : es.Pairwise fun e f ↦ e.span.Apart f.span)
    (hroom : ∀ e ∈ es, e.span.start < e.span.stop) (chosen : Edit → Bool) :
    outermost (es.filter chosen) = (outermost es).filter chosen := by
  have hperm := outermost_perm_of_apart hapart hroom
  have hperm' := outermost_perm_of_apart (hapart.filter chosen) fun e he ↦
    hroom e (List.mem_filter.mp he).1
  have hle : ∀ e ∈ es, e.span.start ≤ e.span.stop := fun e he ↦ Nat.le_of_lt (hroom e he)
  exact eq_of_perm_of_inRow (hperm'.trans (hperm.filter chosen).symm)
    (fun e he ↦ hroom e (List.mem_filter.mp (mem_of_mem_outermost he)).1)
    (inRow_outermost fun e he ↦ hle e (List.mem_filter.mp he).1)
    ((inRow_outermost hle).filter chosen)

/-- Edits that stand apart, and inside a span or beside it, leave for the span what those inside it
make of its text. -/
theorem leaves_within {part : Span} (hpart : part.Covers source)
    (hbase : ∀ e ∈ es, part.start ≤ e.span.start) (hfit : Fit source part.stop es)
    (hs : s.Covers source) (hbs : part.start ≤ s.start) (hss : s.stop ≤ part.stop)
    (hapart : es.Pairwise fun e f ↦ e.span.Apart f.span)
    (hroom : ∀ e ∈ es, e.span.start < e.span.stop)
    (hwithin : ∀ e ∈ es, e.span.Nested s ∨ e.span.Apart s) :
    Leaves source part es s
      (apply s.start (es.filter fun e ↦ decide (e.span.Nested s)) (slice source s)) := by
  have hord : Ordered part.start (outermost es) := (ordered_outermost es).of_le fun e he ↦
    hbase e (mem_of_mem_outermost he)
  rw [Leaves, apply, apply, outermost_filter hapart hroom]
  exact splice_within hpart.start_isBoundary hpart.stop_isBoundary hord
    (fun e he ↦ hfit e (mem_of_mem_outermost he)) hs hbs hss
    (fun e he ↦ hroom e (mem_of_mem_outermost he)) fun e he ↦
    hwithin e (mem_of_mem_outermost he)

/-! ## Up to an offset that no edit crosses -/

/-- Ordered edits are those that start in front of an offset, and then the others. -/
theorem Ordered.filter_append_filter_start (h : Ordered base es)
    (hspan : ∀ e ∈ es, e.span.start ≤ e.span.stop) (q : Nat) :
    (es.filter fun e ↦ decide (e.span.start < q)) ++ (es.filter fun e ↦ decide (q ≤ e.span.start))
      = es := by
  induction es generalizing base with
  | nil => rfl
  | cons e es ih =>
    have hspan' : ∀ f ∈ es, f.span.start ≤ f.span.stop := fun f hf ↦
      hspan f (List.mem_cons_of_mem e hf)
    by_cases hq : e.span.start < q
    · rw [List.filter_cons_of_pos (by simpa using hq), List.filter_cons_of_neg (by simpa using hq),
        List.cons_append, ih h.2 hspan']
    · have hlater : ∀ f ∈ es, q ≤ f.span.start := by
        intro f hf
        have hstart := h.2.start_le hf hspan'
        have he := hspan e List.mem_cons_self
        omega
      have hnone : (es.filter fun f ↦ decide (f.span.start < q)) = [] :=
        List.filter_eq_nil_iff.mpr fun f hf ↦ by simpa using hlater f hf
      have hall : (es.filter fun f ↦ decide (q ≤ f.span.start)) = es :=
        List.filter_eq_self.mpr fun f hf ↦ decide_eq_true (hlater f hf)
      rw [List.filter_cons_of_neg (by simpa using hq), List.filter_cons_of_pos (by simpa using hq),
        hnone, hall, List.nil_append]

/-- What edits make of the text behind an offset falls apart at a later one that no edit crosses. -/
theorem behind_append {p q : Nat} (hp : IsBoundary source p) (hq : IsBoundary source q)
    (hstop : IsBoundary source stop) (hpq : p ≤ q) (hqs : q ≤ stop) (hord : Ordered base es)
    (hfit : Fit source stop es) (hcross : ∀ e ∈ es, e.span.stop ≤ q ∨ q ≤ e.span.start) :
    behind source stop es p
      = splice p (es.filter fun e ↦ decide (p ≤ e.span.start) && decide (e.span.start < q))
          (slice source ⟨p, q⟩)
        ++ behind source stop es q := by
  have hspan : ∀ e ∈ es, e.span.start ≤ e.span.stop := fun e he ↦ (hfit e he).1.start_le_stop
  let later := es.filter fun e ↦ decide (p ≤ e.span.start)
  have hmem : ∀ e ∈ later, e ∈ es ∧ p ≤ e.span.start := fun e he ↦
    ⟨(List.mem_filter.mp he).1, of_decide_eq_true (List.mem_filter.mp he).2⟩
  have hlater : Ordered p later := Ordered.of_pairwise ((hord.pairwise hspan).filter _) fun e he ↦
    (hmem e he).2
  have hsplit := hlater.filter_append_filter_start (fun e he ↦ hspan e (hmem e he).1) q
  have hcut := splice_append hp hq hstop hpq hqs (by rw [hsplit]; exact hlater)
    (by rw [hsplit]; exact fun e he ↦ hfit e (hmem e he).1)
    (fun e he ↦ by
      obtain ⟨he, hstart⟩ := List.mem_filter.mp he
      have hstart : e.span.start < q := of_decide_eq_true hstart
      exact (hcross e (hmem e he).1).resolve_right (Nat.not_le.mpr hstart))
    fun e he ↦ of_decide_eq_true (List.mem_filter.mp he).2
  have hrest : later.filter (fun e ↦ decide (q ≤ e.span.start))
      = es.filter fun e ↦ decide (q ≤ e.span.start) := by
    rw [List.filter_filter]
    refine List.filter_congr fun e _ ↦ ?_
    rw [← Bool.decide_and, decide_eq_decide]
    omega
  rw [hsplit, hrest, List.filter_filter] at hcut
  simp only [Bool.and_comm (decide (p ≤ _))]
  exact hcut

/-- If no two edits start together, an edit stands first among those that start where it does or
later. -/
theorem exists_behind_eq (hstop : IsBoundary source stop) (hord : Ordered base es)
    (hfit : Fit source stop es) (hstarts : es.Pairwise fun e f ↦ e.span.start ≠ f.span.start)
    (he : e ∈ es) :
    ∃ rest, behind source stop es e.span.start = e.text.toList ++ rest := by
  have hspan : ∀ f ∈ es, f.span.start ≤ f.span.stop := fun f hf ↦ (hfit f hf).1.start_le_stop
  obtain ⟨front, back, rfl⟩ := List.append_of_mem he
  obtain ⟨-, -, hfront⟩ := List.pairwise_append.mp (hord.pairwise hspan)
  obtain ⟨-, -, hother⟩ := List.pairwise_append.mp hstarts
  have hnone : front.filter (fun f ↦ decide (e.span.start ≤ f.span.start)) = [] := by
    refine List.filter_eq_nil_iff.mpr fun f hf hstart ↦ ?_
    have hle := hspan f (List.mem_append_left _ hf)
    have hbefore := hfront f hf e List.mem_cons_self
    have hstart : e.span.start ≤ f.span.start := of_decide_eq_true hstart
    have hne := hother f hf e List.mem_cons_self
    omega
  rw [behind, List.filter_append, hnone, List.nil_append,
    List.filter_cons_of_pos (by simp), splice]
  have hstart := (hfit e he).1.start_isBoundary
  rw [takeBytes_slice hstart hstart hstop (Nat.le_refl _) (by
    have hle := (hfit e he).1.start_le_stop
    have := (hfit e he).2
    omega), slice_self, List.nil_append]
  exact ⟨_, rfl⟩

end Downlevel.Edit
