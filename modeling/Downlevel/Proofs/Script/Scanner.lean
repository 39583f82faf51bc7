import Downlevel.Proofs.Script.Trivia

/-!
# Where tokens stand

A token stands on whole characters of the text, behind the blanks and comments in front of it, and
never starts with a line feed. Behind a comment that does not end, the scanner sees nothing more.
-/

namespace Downlevel.Script

open Text Literal

/-! ## Offsets -/

section Takes

variable {source cs : List Char} {pos : Nat}

theorem width_cons_pos {c : Char} : 0 < width (c :: cs) :=
  Nat.add_pos_left c.utf8Size_pos (width cs)

theorem Literal.Takes.isBoundary (h : Takes source pos cs) : IsBoundary source pos := by
  obtain ⟨taken, rfl, rfl⟩ := h
  exact isBoundary_append taken cs

theorem Literal.Takes.dropBytes_eq (h : Takes source pos cs) : dropBytes source pos = cs := by
  obtain ⟨taken, rfl, rfl⟩ := h
  exact dropBytes_append taken cs

theorem Literal.Takes.length_lt {rest : List Char} {w : Nat} (h : Takes cs w rest) (hw : 0 < w) :
    rest.length < cs.length := by
  obtain ⟨taken, rfl, rfl⟩ := h
  have htaken : taken ≠ [] := by
    rintro rfl
    exact Nat.lt_irrefl 0 hw
  have hlength := List.length_pos_iff.mpr htaken
  rw [List.length_append]
  omega

end Takes

/-- What a scanner sees at an offset of a text: what is left there, or nothing, in front of a
comment that does not end. -/
def Left (source : List Char) (pos : Nat) (cs : List Char) : Prop :=
  Takes source pos cs ∨ cs = [] ∧ ∃ ds, Takes source pos ds ∧ ds.head? ≠ some '\n'

theorem Left.isBoundary {source cs : List Char} {pos : Nat} (h : Left source pos cs) :
    IsBoundary source pos := by
  rcases h with h | ⟨-, ds, h, -⟩
  · exact h.isBoundary
  · exact h.isBoundary

/-! ## Tokens -/

/-- Whether a token is made of characters. -/
def Token.isWritten (t : Token) : Bool :=
  match t.kind with
  | .finish | .invalid => false
  | _ => true

/-- A token in its place in a text, with what is seen behind it. -/
structure TokenAt (source : List Char) (t : Token) (rest : List Char) : Prop where
  start_le_stop : t.span.start ≤ t.span.stop
  start : ∃ ds, Takes source t.span.start ds ∧ ds.head? ≠ some '\n'
  stop : Left source t.span.stop rest
  room : t.isWritten = true → t.span.start < t.span.stop
  mark : ∀ m, t.kind = .mark m → Takes source t.span.start (m.toList ++ rest)
  word : ∀ n isEscaped, t.kind = .word n isEscaped → Literal.IsWord n.toList
  plain : ∀ n, t.kind = .word n false → Takes source t.span.start (n.toList ++ rest)
  string : ∀ points raw, t.kind = .string points raw →
    t.span.stop = t.span.start + (width raw.toList + 2)
  template : ∀ chunk isLast, t.kind = .template chunk isLast →
    chunk.span.Covers source ∧ t.span.start ≤ chunk.span.start ∧ chunk.span.stop ≤ t.span.stop

/-- A token of no characters. -/
theorem TokenAt.of_empty {source rest : List Char} {t : Token} (hwritten : t.isWritten = false)
    (hstop : t.span.stop = t.span.start)
    (hstart : ∃ ds, Takes source t.span.start ds ∧ ds.head? ≠ some '\n')
    (hleft : Left source t.span.stop rest) : TokenAt source t rest := by
  have hkind : t.kind = .finish ∨ t.kind = .invalid := by
    unfold Token.isWritten at hwritten
    split at hwritten
    · next h => exact .inl h
    · next h => exact .inr h
    · cases hwritten
  refine ⟨Nat.le_of_eq hstop.symm, hstart, hleft, fun h ↦ ?_, fun m h ↦ ?_, fun n e h ↦ ?_,
    fun n h ↦ ?_, fun ps raw h ↦ ?_, fun ch last h ↦ ?_⟩
  · rw [hwritten] at h
    cases h
  all_goals
    rw [h] at hkind
    simp at hkind

namespace Scanner

variable {source : List Char}

/-! ## Blanks and comments -/

/-- The gap in front of a token ends at what is left of the text, which does not start with a line
feed. -/
structure GapEnd (source : List Char) (pos : Nat) (g : Gap) : Prop where
  le : pos ≤ g.pos
  left : Takes source g.pos g.rest
  head : g.rest.head? ≠ some '\n'

theorem GapEnd.of_le {pos pos' : Nat} {g : Gap} (h : GapEnd source pos g) (hle : pos' ≤ pos) :
    GapEnd source pos' g :=
  ⟨Nat.le_trans hle h.le, h.left, h.head⟩

theorem gapEnd_skip (opens : Bool) (fuel : List Char) (g : Gap)
    (hleft : Takes source g.pos g.rest) (hfuel : g.rest.length ≤ fuel.length) :
    GapEnd source g.pos (skip opens fuel g) := by
  induction fuel generalizing g with
  | nil =>
    have hrest : g.rest = [] := List.eq_nil_of_length_eq_zero (Nat.le_zero.mp hfuel)
    rw [skip]
    exact ⟨Nat.le_refl _, hleft, by rw [hrest]; simp⟩
  | cons _ fuel ih =>
    rw [skip]
    split
    · next hrest => exact ⟨Nat.le_refl _, hleft, by rw [hrest]; simp⟩
    · next cs hrest =>
      -- The fuel is no shorter than what is left, so a comment of any length is covered by it.
      have hspan := takes_span (fun c ↦ !isLineEnd c) cs
      have hcomment : Takes g.rest (width ('/' :: '/' :: (cs.span fun c ↦ !isLineEnd c).1))
          (cs.span fun c ↦ !isLineEnd c).2 := by
        rw [hrest]
        exact (hspan.cons '/').cons '/'
      refine (ih _ (hleft.trans hcomment) ?_).of_le (Nat.le_add_right _ _)
      exact Nat.le_of_lt_succ (Nat.lt_of_lt_of_le (hcomment.length_lt width_cons_pos) hfuel)
    · next cs hrest =>
      split
      · exact ⟨Nat.le_refl _, hleft, by rw [hrest]; simp⟩
      · next inside rest hblock =>
        have hcomment : Takes g.rest (width ('/' :: '*' :: inside)) rest := by
          rw [hrest, blockComment_eq_some hblock]
          exact ⟨'/' :: '*' :: inside, rfl, rfl⟩
        refine (ih _ (hleft.trans hcomment) ?_).of_le (Nat.le_add_right _ _)
        exact Nat.le_of_lt_succ (Nat.lt_of_lt_of_le (hcomment.length_lt width_cons_pos) hfuel)
    · next c rest _ _ hrest =>
      have hcharacter : Takes g.rest c.utf8Size rest := by
        rw [hrest]
        exact (Takes.nil rest).cons c
      have hshorter := Nat.le_of_lt_succ
        (Nat.lt_of_lt_of_le (hcharacter.length_lt c.utf8Size_pos) hfuel)
      split
      · exact (ih _ (hleft.trans hcharacter) hshorter).of_le (Nat.le_add_right _ _)
      · next hend =>
        split
        · exact (ih _ (hleft.trans hcharacter) hshorter).of_le (Nat.le_add_right _ _)
        · refine ⟨Nat.le_refl _, hleft, ?_⟩
          rw [hrest, List.head?_cons, Ne, Option.some.injEq]
          rintro rfl
          exact hend rfl

/-! ## Tokens -/

theorem width_marks : ∀ m ∈ marks, m.toList ≠ [] ∧ width m.toList = m.length := by decide

/-- A piece of punctuation takes one byte for each of its characters, and is not empty. -/
theorem takes_mark {cs : List Char} {m : String} (h : mark? cs = some m) :
    cs = m.toList ++ cs.drop m.length ∧ width m.toList = m.length ∧ 0 < m.length := by
  unfold mark? at h
  have hfound := List.find?_some h
  rw [Bool.and_eq_true, List.isPrefixOf_iff_prefix] at hfound
  obtain ⟨hne, hwidth⟩ := width_marks m (List.mem_of_find?_eq_some h)
  obtain ⟨tail, rfl⟩ := hfound.1
  refine ⟨?_, hwidth, List.length_pos_iff.mpr hne⟩
  rw [← String.length_toList, List.drop_left]

/-- What the kind of a token tells of the characters it is made of. The token stands at byte `pos`
and takes `w` bytes. -/
def Fits (pos : Nat) (cs rest : List Char) (w : Nat) : TokenKind → Prop
  | .mark m => cs = m.toList ++ rest
  | .word n isEscaped => IsWord n.toList ∧ (isEscaped = false → cs = n.toList ++ rest)
  | .string _ raw => w = width raw.toList + 2
  | .template chunk _ => ∃ v inner delimiter, chunk.span = ⟨pos + 1, pos + 1 + v⟩ ∧
      Takes cs 1 inner ∧ Takes inner v delimiter ∧ 1 + v ≤ w
  | _ => True

theorem fits_of_isNumeric {pos w : Nat} {cs rest : List Char} {kind : TokenKind}
    (h : isNumeric kind = true) : Fits pos cs rest w kind := by
  unfold isNumeric at h
  split at h
  · trivial
  · trivial
  · cases h

theorem takes_body {pos : Nat} {cs rest : List Char} {kind : TokenKind} {w : Nat}
    (h : body pos cs = (kind, w, rest)) :
    Takes cs w rest ∧ (kind = .finish ∨ kind = .invalid ∨ 0 < w) ∧ Fits pos cs rest w kind := by
  unfold body at h
  split at h
  · cases h
    exact ⟨.nil _, .inl rfl, trivial⟩
  · next c tail =>
    rcases Option.getD_eq_iff.mp h with h | ⟨-, h⟩
    · clear * - h
      rcases ite_eq_iff.mp h with ⟨-, h⟩ | ⟨-, h⟩
      · obtain ⟨htakes, hpos, hkind⟩ := takes_number h
        exact ⟨htakes, .inr (.inr hpos), fits_of_isNumeric hkind⟩
      rcases ite_eq_iff.mp h with ⟨hc, h⟩ | ⟨-, h⟩
      · rw [Bool.and_eq_true, decide_eq_true_iff] at hc
        obtain ⟨v, rfl, htakes, hpos, hkind⟩ := takes_decimalTail h
        have hpos := hpos (by rw [hc.1]; rfl)
        exact ⟨htakes.congr (Nat.zero_add v).symm, .inr (.inr (by omega)), fits_of_isNumeric hkind⟩
      rcases ite_eq_iff.mp h with ⟨hc, h⟩ | ⟨-, h⟩
      · obtain ⟨⟨points, w', rest'⟩, hstring, h⟩ := Option.map_eq_some_iff.mp h
        cases h
        have hquote : c.utf8Size = 1 := by
          rw [Bool.or_eq_true, decide_eq_true_iff, decide_eq_true_iff] at hc
          rcases hc with rfl | rfl <;> rfl
        -- The raw text is what stands between the quotes, so the closing one is not counted.
        obtain ⟨v, rfl, hv⟩ := takes_string hstring
        have hraw : width (takeBytes tail v) = v := hv.isBoundary
        refine ⟨(hv.trans ((Takes.nil _).cons_ascii hquote)).cons_ascii hquote,
          .inr (.inr (Nat.succ_pos _)), ?_⟩
        rw [Fits, String.toList_ofList, Nat.add_sub_cancel, hraw]
      rcases ite_eq_iff.mp h with ⟨hc, h⟩ | ⟨-, h⟩
      · obtain ⟨⟨ch, w', last, rest'⟩, hchunk, h⟩ := Option.map_eq_some_iff.mp h
        cases h
        obtain ⟨v, u, delimiter, hspan, rfl, htext, hend⟩ := takes_chunk hchunk
        have hquote : c.utf8Size = 1 := by rw [hc]; rfl
        exact ⟨(htext.trans hend).cons_ascii hquote, .inr (.inr (Nat.succ_pos _)), v, tail,
          delimiter, hspan, (Takes.nil _).cons_ascii hquote, htext, by omega⟩
      rcases ite_eq_iff.mp h with ⟨hc, h⟩ | ⟨-, h⟩
      · obtain ⟨⟨⟨n, escaped⟩, w', rest'⟩, hname, h⟩ := Option.map_eq_some_iff.mp h
        cases h
        exact ⟨(takes_name hname).cons_ascii (by rw [hc]; rfl), .inr (.inr (Nat.succ_pos _)),
          trivial⟩
      split at h
      · next m hmark =>
        cases h
        obtain ⟨hcs, hwidth, hpos⟩ := takes_mark hmark
        exact ⟨⟨m.toList, hcs, hwidth⟩, .inr (.inr hpos), hcs⟩
      · obtain ⟨⟨⟨n, escaped⟩, w', rest'⟩, hname, h⟩ := Option.map_eq_some_iff.mp h
        cases h
        exact ⟨takes_name hname, .inr (.inr (pos_of_name hname)), isWord_of_name hname,
          eq_append_of_name hname⟩
    · cases h
      exact ⟨.nil _, .inr (.inl rfl), trivial⟩

/-- The next token stands behind the place where it is looked for. -/
theorem tokenAt_next {pos : Nat} {cs : List Char} (h : Left source pos cs) (opens isFirst : Bool) :
    TokenAt source (next opens isFirst pos cs).1 (next opens isFirst pos cs).2 ∧
      pos ≤ (next opens isFirst pos cs).1.span.start := by
  rcases h with h | ⟨rfl, ds, hds, hhead⟩
  · have hgap :=
      gapEnd_skip opens cs ⟨cs, pos, isFirst, isFirst, [], false, false⟩ h (Nat.le_refl _)
    rw [next]
    dsimp only
    generalize skip opens cs ⟨cs, pos, isFirst, isFirst, [], false, false⟩ = g at hgap
    have hstart : ∃ ds, Takes source g.pos ds ∧ ds.head? ≠ some '\n' := ⟨_, hgap.left, hgap.head⟩
    split
    · exact ⟨.of_empty rfl rfl hstart (.inr ⟨rfl, hstart⟩), hgap.le⟩
    · rcases hbody : body g.pos g.rest with ⟨kind, w, rest⟩
      obtain ⟨htakes, hkind, hfits⟩ := takes_body hbody
      refine ⟨⟨Nat.le_add_right _ _, hstart, .inl (hgap.left.trans htakes), fun hwritten ↦ ?_,
        fun m hm ↦ ?_, fun n e hword ↦ ?_, fun n hword ↦ ?_, fun points raw hstring ↦ ?_,
        fun chunk last htemplate ↦ ?_⟩, hgap.le⟩
      · -- Only the end of the text and what is no token take no room.
        rcases hkind with rfl | rfl | hpos
        · cases hwritten
        · cases hwritten
        · exact Nat.lt_add_of_pos_right hpos
      · cases hm
        exact hfits ▸ hgap.left
      · cases hword
        exact hfits.1
      · cases hword
        exact hfits.2 rfl ▸ hgap.left
      · cases hstring
        exact congrArg (g.pos + ·) hfits
      · cases htemplate
        obtain ⟨v, inner, delimiter, hspan, hinner, hdelimiter, hle⟩ := hfits
        have hfirst := hgap.left.trans hinner
        rw [hspan]
        refine ⟨⟨Nat.le_add_right _ _, hfirst.isBoundary, (hfirst.trans hdelimiter).isBoundary⟩,
          Nat.le_add_right _ _, ?_⟩
        dsimp only
        omega
  · exact ⟨.of_empty rfl rfl ⟨ds, hds, hhead⟩ (.inr ⟨rfl, ds, hds, hhead⟩), Nat.le_refl _⟩

/-- In front of the next token stand blanks, line ends and comments. -/
theorem isTrivia_next {pos : Nat} {cs : List Char} (h : Left source pos cs) (opens isFirst : Bool) :
    IsTrivia (slice source ⟨pos, (next opens isFirst pos cs).1.span.start⟩) := by
  rcases h with ⟨taken, rfl, rfl⟩ | ⟨rfl, -⟩
  · obtain ⟨gap, hgap, hcs, hpos⟩ :=
      skips_skip opens cs ⟨cs, width taken, isFirst, isFirst, [], false, false⟩
    have hstart : (next opens isFirst (width taken) cs).1.span.start
        = width taken + width gap := hpos
    rw [hstart]
    dsimp only at hcs
    rw [hcs, slice_append]
    exact hgap
  · exact (slice_self source pos).symm ▸ .nil

/-- What is left behind the first line, if it names an interpreter. -/
theorem takes_interpreter (cs : List Char) :
    Takes cs (interpreter cs).2.1 (interpreter cs).2.2 := by
  unfold interpreter
  split
  next bom body hbody =>
  have hcs : cs = bom ++ body := by
    split at hbody <;>
    · cases hbody
      rfl
  have hbom : Takes cs (width bom) body := ⟨bom, hcs, rfl⟩
  split
  · next line =>
    have hfirst := ((takes_span (fun c ↦ !isLineEnd c) line).cons '!').cons '#'
    refine (hbom.trans hfirst).congr ?_
    have hone : '#'.utf8Size = 1 ∧ '!'.utf8Size = 1 := ⟨rfl, rfl⟩
    dsimp only
    omega
  · exact hbom

end Scanner

end Downlevel.Script
