import Downlevel.Proofs.Text.Leaves

/-!
# Simultaneous replacement

What applying edits comes to, without an order in which to carry them out: at every offset of the
text the texts of the edits that start there are put in, and a character is left out if an edit
covers it. Edits that are disjoint or nested are applied in that sense, those nested in another one
left out, and so the order in which they were collected does not matter.

The same text is made in place, from the last edit to the first. A replacement in place can fail: its
offsets may be out of order, out of bounds or inside a character. From the last to the first it never
does, because the text in front of an edit is as it was when the edit is carried out.
-/

namespace Downlevel.Edit

open Text

variable {base p : Nat} {es fs : List Edit} {e : Edit} {text : List Char}

/-! ## Definitions -/

/-- The texts of the edits that start at an offset. -/
def textsAt (es : List Edit) (p : Nat) : List Char :=
  (es.filter fun e ↦ decide (e.span.start = p)).flatMap fun e ↦ e.text.toList

/-- Whether an edit replaces the character at an offset. -/
def replaces (es : List Edit) (p : Nat) : Bool :=
  es.any fun e ↦ decide (e.span.start ≤ p) && decide (p < e.span.stop)

/-- A text that begins at an offset, with all edits of a list carried out at the same time. -/
def simultaneous (es : List Edit) : Nat → List Char → List Char
  | p, [] => textsAt es p
  | p, c :: cs =>
    textsAt es p ++ ((if replaces es p then [] else [c]) ++ simultaneous es (p + c.utf8Size) cs)

/-- Puts a text in place of the bytes between two offsets. There is no result if the offsets are out
of order, out of bounds or inside a character. -/
def replaceRange? (text : List Char) (start stop : Nat) (new : List Char) : Option (List Char) :=
  if start ≤ stop ∧ IsBoundary text start ∧ IsBoundary text stop then
    some (takeBytes text start ++ (new ++ dropBytes text stop))
  else
    none

/-- Carries out an edit in place on a text that begins at byte `base`. There is no result if the edit
reaches in front of the text. -/
def inPlace? (base : Nat) (text : List Char) (e : Edit) : Option (List Char) :=
  if base ≤ e.span.start ∧ base ≤ e.span.stop then
    replaceRange? text (e.span.start - base) (e.span.stop - base) e.text.toList
  else
    none

/-- Carries out edits in place, one after the other from the last to the first. -/
def backToFront? (base : Nat) (es : List Edit) (text : List Char) : Option (List Char) :=
  es.reverse.foldlM (inPlace? base) text

/-- An edit that lies within a text that begins at byte `base`, between two of its characters on
either side. -/
structure Within (base : Nat) (text : List Char) (e : Edit) : Prop where
  base_le_start : base ≤ e.span.start
  start_le_stop : e.span.start ≤ e.span.stop
  start_isBoundary : IsBoundary text (e.span.start - base)
  stop_isBoundary : IsBoundary text (e.span.stop - base)

instance (base : Nat) (text : List Char) (e : Edit) : Decidable (Within base text e) :=
  decidable_of_iff (base ≤ e.span.start ∧ e.span.start ≤ e.span.stop
      ∧ IsBoundary text (e.span.start - base) ∧ IsBoundary text (e.span.stop - base))
    ⟨fun h ↦ ⟨h.1, h.2.1, h.2.2.1, h.2.2.2⟩, fun h ↦ ⟨h.1, h.2, h.3, h.4⟩⟩

/-! ## Edits within a text -/

/-- An edit cuts the text it lies within into three parts. -/
theorem Within.exists_append (h : Within base text e) :
    ∃ as bs cs, text = as ++ (bs ++ cs) ∧ e.span.start = base + width as
      ∧ e.span.stop = base + width as + width bs := by
  have hstart := h.base_le_start
  have hle := h.start_le_stop
  obtain ⟨as, rest, rfl, has⟩ := h.start_isBoundary.exists_append
  obtain ⟨bs, cs, rfl, hbs⟩ := h.stop_isBoundary.of_append (by omega)
  exact ⟨as, bs, cs, rfl, by omega, by omega⟩

/-- An edit behind the front part of a text lies within the rest of it. -/
theorem Within.of_append {front rest : List Char} (h : Within base (front ++ rest) e)
    (hle : base + width front ≤ e.span.start) : Within (base + width front) rest e := by
  have hstart := h.start_le_stop
  have hboundary : ∀ {n}, base + width front ≤ n → IsBoundary (front ++ rest) (n - base) →
      IsBoundary rest (n - (base + width front)) := by
    intro n hn hb
    obtain ⟨cs, ds, rfl, hwidth⟩ := hb.of_append (by omega)
    have hn : n - (base + width front) = width cs := by omega
    rw [hn]
    exact isBoundary_append cs ds
  exact ⟨hle, hstart, hboundary hle h.start_isBoundary,
    hboundary (Nat.le_trans hle hstart) h.stop_isBoundary⟩

theorem splice_cons_append {as bs cs : List Char} (hstart : e.span.start = base + width as)
    (hstop : e.span.stop = base + width as + width bs) :
    splice base (e :: es) (as ++ (bs ++ cs))
      = as ++ (e.text.toList ++ splice e.span.stop es cs) := by
  have hcut : as ++ (bs ++ cs) = (as ++ bs) ++ cs := (List.append_assoc ..).symm
  have hwidth : e.span.stop - base = width (as ++ bs) := by rw [width_append]; omega
  rw [splice, hstart, Nat.add_sub_cancel_left, takeBytes_append, hwidth, hcut, dropBytes_append,
    List.append_assoc]

/-! ## From left to right -/

theorem textsAt_cons (e : Edit) (es : List Edit) (p : Nat) :
    textsAt (e :: es) p = (if e.span.start = p then e.text.toList else []) ++ textsAt es p := by
  by_cases h : e.span.start = p <;> simp [textsAt, h]

theorem textsAt_eq_nil (h : ∀ e ∈ es, e.span.start ≠ p) : textsAt es p = [] := by
  rw [textsAt, List.filter_eq_nil_iff.mpr (by simpa using h), List.flatMap_nil]

theorem replaces_eq_false (h : ∀ e ∈ es, p < e.span.start ∨ e.span.stop ≤ p) :
    replaces es p = false := by
  rw [replaces, List.any_eq_false]
  intro e he
  have hbeside := h e he
  simp only [Bool.and_eq_true, decide_eq_true_eq]
  omega

/-- A part of the text that no edit starts in or reaches into is left as it is. -/
theorem simultaneous_append (as bs : List Char) (h : ∀ e ∈ es, p + width as ≤ e.span.start) :
    simultaneous es p (as ++ bs) = as ++ simultaneous es (p + width as) bs := by
  induction as generalizing p with
  | nil => rfl
  | cons c cs ih =>
    have hc := c.utf8Size_pos
    rw [width_cons] at h ⊢
    have hnone : textsAt es p = [] := textsAt_eq_nil fun e he ↦ by
      have hstart := h e he
      omega
    have hkept : replaces es p = false := replaces_eq_false fun e he ↦ by
      have hstart := h e he
      omega
    have hrest := ih (p := p + c.utf8Size) fun e he ↦ by
      have hstart := h e he
      omega
    rw [List.cons_append, simultaneous, hnone, hkept, hrest]
    simp [Nat.add_assoc]

/-- What an edit covers is left out, if no other edit starts there. -/
theorem simultaneous_append_of_covered (bs cs : List Char) (he : e ∈ es) (hstart : e.span.start ≤ p)
    (hstop : p + width bs ≤ e.span.stop)
    (hother : ∀ f ∈ es, f.span.start < p ∨ p + width bs ≤ f.span.start) :
    simultaneous es p (bs ++ cs) = simultaneous es (p + width bs) cs := by
  induction bs generalizing p with
  | nil => rfl
  | cons b bs ih =>
    have hb := b.utf8Size_pos
    rw [width_cons] at hstop hother ⊢
    have hnone : textsAt es p = [] := textsAt_eq_nil fun f hf ↦ by
      have hstart := hother f hf
      omega
    have hleft : replaces es p = true := by
      refine List.any_eq_true.mpr ⟨e, he, ?_⟩
      simp only [Bool.and_eq_true, decide_eq_true_eq]
      omega
    have hrest := ih (p := p + b.utf8Size) (by omega) (by omega) fun f hf ↦ by
      have hstart := hother f hf
      omega
    rw [List.cons_append, simultaneous, hnone, hleft, hrest]
    simp [Nat.add_assoc]

/-- Behind its span an edit is over. -/
theorem simultaneous_cons_of_lt (hstart : e.span.start < p) (hstop : e.span.stop ≤ p) :
    simultaneous (e :: es) p text = simultaneous es p text := by
  induction text generalizing p with
  | nil => rw [simultaneous, simultaneous, textsAt_cons, if_neg (by omega), List.nil_append]
  | cons c cs ih =>
    have hover : replaces (e :: es) p = replaces es p := by
      rw [replaces, List.any_cons, decide_eq_false (by omega : ¬p < e.span.stop), Bool.and_false,
        Bool.false_or, replaces]
    rw [simultaneous, simultaneous, textsAt_cons, if_neg (by omega), List.nil_append, hover,
      ih (by omega) (by omega)]

/-- An edit that takes no room is over once its text is put in. -/
theorem simultaneous_cons_of_eq (hstart : e.span.start = p) (hstop : e.span.stop = p) :
    simultaneous (e :: es) p text = e.text.toList ++ simultaneous es p text := by
  cases text with
  | nil => rw [simultaneous, simultaneous, textsAt_cons, if_pos hstart]
  | cons c cs =>
    have hc := c.utf8Size_pos
    have hover : replaces (e :: es) p = replaces es p := by
      rw [replaces, List.any_cons, decide_eq_false (by omega : ¬p < e.span.stop), Bool.and_false,
        Bool.false_or, replaces]
    rw [simultaneous, simultaneous, textsAt_cons, if_pos hstart, hover,
      simultaneous_cons_of_lt (by omega) (by omega), List.append_assoc]

/-- At its start an edit puts its text in place of what it covers. -/
theorem simultaneous_cons {bs : List Char} (cs : List Char) (hstart : e.span.start = p)
    (hstop : e.span.stop = p + width bs) (hbehind : ∀ f ∈ es, e.span.stop ≤ f.span.start) :
    simultaneous (e :: es) p (bs ++ cs) = e.text.toList ++ simultaneous es e.span.stop cs := by
  cases bs with
  | nil =>
    have hempty : e.span.stop = p := hstop
    rw [List.nil_append, simultaneous_cons_of_eq hstart hempty, hempty]
  | cons b bs =>
    have hb := b.utf8Size_pos
    rw [width_cons] at hstop
    have hnone : textsAt es p = [] := textsAt_eq_nil fun f hf ↦ by
      have hf := hbehind f hf
      omega
    have hleft : replaces (e :: es) p = true := by
      refine List.any_eq_true.mpr ⟨e, List.mem_cons_self, ?_⟩
      simp only [Bool.and_eq_true, decide_eq_true_eq]
      omega
    have hother : ∀ f ∈ e :: es, f.span.start < p + b.utf8Size
        ∨ p + b.utf8Size + width bs ≤ f.span.start := by
      intro f hf
      rcases List.mem_cons.mp hf with rfl | hf
      · omega
      · have hf := hbehind f hf
        omega
    have hrest := simultaneous_append_of_covered bs cs List.mem_cons_self (by omega) (by omega)
      hother
    have hend : p + b.utf8Size + width bs = e.span.stop := by omega
    rw [List.cons_append, simultaneous, textsAt_cons, if_pos hstart, hnone, if_pos hleft, hrest,
      hend, simultaneous_cons_of_lt (by omega) (Nat.le_refl _), List.append_nil, List.nil_append]

theorem simultaneous_nil (p : Nat) (text : List Char) : simultaneous [] p text = text := by
  induction text generalizing p with
  | nil => rfl
  | cons c cs ih => exact congrArg (c :: ·) (ih _)

/-- Ordered edits spliced in from left to right are carried out at the same time. -/
theorem splice_eq_simultaneous (hord : Ordered base es) (hwithin : ∀ e ∈ es, Within base text e) :
    splice base es text = simultaneous es base text := by
  induction es generalizing base text with
  | nil => rw [splice, simultaneous_nil]
  | cons e es ih =>
    have hspan : ∀ f ∈ es, f.span.start ≤ f.span.stop := fun f hf ↦
      (hwithin f (List.mem_cons_of_mem e hf)).start_le_stop
    have hbehind : ∀ f ∈ es, e.span.stop ≤ f.span.start := fun f hf ↦ hord.2.start_le hf hspan
    obtain ⟨as, bs, cs, rfl, hstart, hstop⟩ := (hwithin e List.mem_cons_self).exists_append
    have hfront : ∀ f ∈ e :: es, base + width as ≤ f.span.start := by
      intro f hf
      rcases List.mem_cons.mp hf with rfl | hf
      · omega
      · have hf := hbehind f hf
        omega
    have hend : e.span.stop = base + width (as ++ bs) := by rw [width_append]; omega
    have hrest : ∀ f ∈ es, Within e.span.stop cs f := by
      intro f hf
      have hf' := hwithin f (List.mem_cons_of_mem e hf)
      rw [← List.append_assoc] at hf'
      rw [hend]
      exact hf'.of_append (hend ▸ hbehind f hf)
    rw [splice_cons_append hstart hstop, ih hord.2 hrest, simultaneous_append as _ hfront,
      simultaneous_cons cs hstart hstop hbehind]

/-! ## From the last to the first -/

theorem replaceRange?_append (as bs cs new : List Char) :
    replaceRange? (as ++ (bs ++ cs)) (width as) (width as + width bs) new
      = some (as ++ (new ++ cs)) := by
  have hcut : as ++ (bs ++ cs) = (as ++ bs) ++ cs := (List.append_assoc ..).symm
  have hstop : IsBoundary (as ++ (bs ++ cs)) (width as + width bs) := by
    rw [hcut, ← width_append]
    exact isBoundary_append ..
  rw [replaceRange?, if_pos ⟨Nat.le_add_right _ _, isBoundary_append .., hstop⟩, takeBytes_append,
    hcut, ← width_append, dropBytes_append]

theorem inPlace?_append {as bs cs : List Char} (hstart : e.span.start = base + width as)
    (hstop : e.span.stop = base + width as + width bs) :
    inPlace? base (as ++ (bs ++ cs)) e = some (as ++ (e.text.toList ++ cs)) := by
  have hwidth : e.span.stop - base = width as + width bs := by omega
  rw [inPlace?, if_pos (by omega), hwidth, hstart, Nat.add_sub_cancel_left, replaceRange?_append]

theorem backToFront?_cons (e : Edit) (es : List Edit) (text : List Char) :
    backToFront? base (e :: es) text
      = (backToFront? base es text).bind fun new ↦ inPlace? base new e := by
  simp [backToFront?, List.foldlM_append]

/-- Ordered edits can be carried out in place from the last to the first, and make the text that
splicing them in from left to right makes. In front of the text there may be more of it, which stays
as it is. -/
theorem backToFront?_append (front : List Char) (hord : Ordered (base + width front) es)
    (hwithin : ∀ e ∈ es, Within (base + width front) text e) :
    backToFront? base es (front ++ text)
      = some (front ++ splice (base + width front) es text) := by
  induction es generalizing front text with
  | nil => rfl
  | cons e es ih =>
    have hspan : ∀ f ∈ es, f.span.start ≤ f.span.stop := fun f hf ↦
      (hwithin f (List.mem_cons_of_mem e hf)).start_le_stop
    obtain ⟨as, bs, cs, rfl, hstart, hstop⟩ := (hwithin e List.mem_cons_self).exists_append
    -- What stands in front of the later edits is all of the text up to the end of this one.
    let whole := front ++ (as ++ bs)
    have hwidth : base + width whole = e.span.stop := by
      simp only [whole, width_append]
      omega
    have hrest : ∀ f ∈ es, Within (base + width whole) cs f := by
      intro f hf
      have hf' := hwithin f (List.mem_cons_of_mem e hf)
      have hbehind := hord.2.start_le hf hspan
      have hsum : base + width whole = base + width front + width (as ++ bs) := by
        simp only [whole, width_append]
        omega
      rw [← List.append_assoc] at hf'
      rw [hsum]
      exact hf'.of_append (by omega)
    have hlater := ih whole (hwidth ▸ hord.2) hrest
    rw [hwidth] at hlater
    have hcut : front ++ (as ++ (bs ++ cs)) = whole ++ cs := by simp [whole]
    have hwhole : whole ++ splice e.span.stop es cs
        = (front ++ as) ++ (bs ++ splice e.span.stop es cs) := by simp [whole]
    rw [backToFront?_cons, hcut, hlater, Option.bind_some, hwhole,
      inPlace?_append (by rw [width_append]; omega) (by rw [width_append]; omega),
      splice_cons_append hstart hstop, List.append_assoc]

/-! ## The order of collection -/

/-- Edits that each start at an offset of their own can be listed in any order. -/
theorem simultaneous_perm (hperm : es.Perm fs)
    (hstarts : es.Pairwise fun e f ↦ e.span.start ≠ f.span.start) :
    simultaneous es p text = simultaneous fs p text := by
  have htexts : ∀ q, textsAt es q = textsAt fs q := by
    intro q
    have hone := hstarts.filter fun e ↦ decide (e.span.start = q)
    have hfilter := hperm.filter fun e ↦ decide (e.span.start = q)
    rw [textsAt, textsAt]
    cases hat : es.filter fun e ↦ decide (e.span.start = q) with
    | nil => rw [hat] at hfilter; rw [hfilter.nil_eq]
    | cons e rest =>
      cases rest with
      | nil => rw [hat] at hfilter; rw [List.singleton_perm.mp hfilter]
      | cons f rest =>
        -- A second edit that starts here would share its start with the first.
        have hstart : ∀ g ∈ e :: f :: rest, g.span.start = q := by
          intro g hg
          rw [← hat] at hg
          exact of_decide_eq_true (List.mem_filter.mp hg).2
        rw [hat] at hone
        have hne := (List.pairwise_cons.mp hone).1 f List.mem_cons_self
        exact absurd ((hstart e (by simp)).trans (hstart f (by simp)).symm) hne
  have hcovered : ∀ q, replaces es q = replaces fs q := fun q ↦ hperm.any_eq
  induction text generalizing p with
  | nil => rw [simultaneous, simultaneous, htexts]
  | cons c cs ih => rw [simultaneous, simultaneous, htexts, hcovered, ih]

/-- The edits of a list that are not nested in another one. -/
def unnested (edits : List Edit) : List Edit := edits.filter fun e ↦ decide (IsOutermost edits e)

theorem unnested_perm {edits edits' : List Edit} (h : edits.Perm edits') :
    (unnested edits).Perm (unnested edits') := by
  have hsame : ∀ e, IsOutermost edits e ↔ IsOutermost edits' e := fun e ↦
    ⟨fun he f hf ↦ he f (h.mem_iff.mpr hf), fun he f hf ↦ he f (h.mem_iff.mp hf)⟩
  simp only [unnested, hsame]
  exact h.filter _

/-- Edits that lie within a text, have different spans and are disjoint or nested are applied by
carrying out those not nested in another one, all at the same time. Carried out in place from the
last to the first they make the same text and never fail, and the order in which the edits are listed
makes no difference. -/
theorem apply_eq_simultaneous {edits : List Edit} (hlaminar : Laminar edits)
    (hwithin : ∀ e ∈ edits, Within base text e) :
    apply base edits text = simultaneous (unnested edits) base text
      ∧ backToFront? base (outermost edits) text = some (apply base edits text)
      ∧ ∀ edits', edits.Perm edits' → apply base edits' text = apply base edits text := by
  have happly : ∀ edits', edits.Perm edits' →
      apply base edits' text = simultaneous (unnested edits) base text := by
    intro edits' hperm
    have hlaminar' := hlaminar.perm hperm
    have hwithin' : ∀ e ∈ outermost edits', Within base text e := fun e he ↦
      hwithin e (hperm.mem_iff.mpr (mem_of_mem_outermost he))
    have hord : Ordered base (outermost edits') := (ordered_outermost edits').of_le fun e he ↦
      (hwithin' e he).base_le_start
    have hunnested : (unnested edits).Perm (outermost edits') :=
      (unnested_perm hperm).trans (outermost_perm hlaminar').symm
    rw [apply, splice_eq_simultaneous hord hwithin',
      simultaneous_perm hunnested.symm hlaminar'.starts_ne]
  have hwithin' : ∀ e ∈ outermost edits, Within base text e := fun e he ↦
    hwithin e (mem_of_mem_outermost he)
  have hord : Ordered base (outermost edits) := (ordered_outermost edits).of_le fun e he ↦
    (hwithin' e he).base_le_start
  have hself := happly edits (List.Perm.refl edits)
  refine ⟨hself, ?_, fun edits' hperm ↦ (happly edits' hperm).trans hself.symm⟩
  exact backToFront?_append [] hord hwithin'

/-- Edits of a text with a two-byte letter that begins at byte 10: two edits inside the braces, one
of them inside the other, the braces as a whole, an edit that touches them, one that takes no room
behind that, and the letter. -/
def bracedEdits : List Edit :=
  [⟨⟨14, 15⟩, "A"⟩, ⟨⟨14, 14⟩, "i"⟩, ⟨⟨17, 18⟩, "Y"⟩, ⟨⟨18, 18⟩, "!"⟩, ⟨⟨13, 17⟩, "[]"⟩,
    ⟨⟨11, 13⟩, "e"⟩]

theorem apply_eq_simultaneous_braced :
    Laminar bracedEdits
      ∧ (∀ e ∈ bracedEdits, Within 10 ['x', 'é', '{', 'a', 'b', '}', 'y'] e)
      ∧ apply 10 bracedEdits ['x', 'é', '{', 'a', 'b', '}', 'y'] = ['x', 'e', '[', ']', 'Y', '!']
      ∧ apply 10 bracedEdits.reverse ['x', 'é', '{', 'a', 'b', '}', 'y']
          = ['x', 'e', '[', ']', 'Y', '!'] := by
  have hlaminar : Laminar bracedEdits := ⟨by decide, by decide, by decide⟩
  have hwithin : ∀ e ∈ bracedEdits, Within 10 ['x', 'é', '{', 'a', 'b', '}', 'y'] e := by decide
  obtain ⟨happly, -, hperm⟩ := apply_eq_simultaneous hlaminar hwithin
  have htext : simultaneous (unnested bracedEdits) 10 ['x', 'é', '{', 'a', 'b', '}', 'y']
      = ['x', 'e', '[', ']', 'Y', '!'] := by decide
  rw [htext] at happly
  exact ⟨hlaminar, hwithin, happly, (hperm _ (List.reverse_perm _).symm).trans happly⟩

end Downlevel.Edit
