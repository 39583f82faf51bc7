import Downlevel.Proofs.CommonJs.Collected
import Downlevel.Proofs.CommonJs.Lines
import Mathlib.Data.List.Forall2

/-!
# Headers of whole lines

Everything that is put in front of a script ends its line: the preamble, every moved call, and every
statement that takes the place of an import. So a header is empty or ends in a line feed, and the
body begins a line. The only text that a header takes over from elsewhere is that of guarded
imports, which is followed through the run of the conversion.
-/

namespace Downlevel.CommonJs

open Script

/-! ## Texts of whole lines -/

theorem WholeLines.flatMap {α : Type} {f : α → List Char} {xs : List α}
    (h : ∀ x ∈ xs, WholeLines (f x)) : WholeLines (xs.flatMap f) := by
  induction xs with
  | nil => exact .inl rfl
  | cons x xs ih =>
    rw [List.flatMap_cons]
    exact (h x List.mem_cons_self).append (ih fun y hy ↦ h y (List.mem_cons_of_mem x hy))

theorem WholeLines.join {texts : List String} (h : ∀ t ∈ texts, WholeLines t.toList) :
    WholeLines (String.join texts).toList := by
  rw [String.toList_join]
  exact .flatMap h

theorem wholeLines_append_string (front : String) {last : String} (h : endsLine last.toList = true) :
    WholeLines (front ++ last).toList := by
  right
  unfold endsLine at *
  rw [beq_iff_eq] at *
  rw [String.toList_append, List.getLast?_append, h, Option.some_or]

/-! ## Statements for imports -/

theorem forall₂_of_mapM {ε α β : Type} {f : α → Except ε β} {as : List α} {bs : List β}
    (h : as.mapM f = .ok bs) : List.Forall₂ (fun a b ↦ f a = .ok b) as bs := by
  induction as generalizing bs with
  | nil =>
    cases h
    exact .nil
  | cons a as ih =>
    rw [List.mapM_cons] at h
    cases ha : f a with
    | error e => rw [ha] at h; cases h
    | ok b =>
      cases hrest : as.mapM f with
      | error e => rw [ha, hrest] at h; cases h
      | ok bs =>
        rw [ha, hrest] at h
        cases h
        exact .cons ha (ih hrest)

theorem exists_of_mem_forall₂ {α β : Type} {R : α → β → Prop} {as : List α} {bs : List β} {b : β}
    (h : List.Forall₂ R as bs) (hb : b ∈ bs) : ∃ a ∈ as, R a b := by
  induction h with
  | nil => cases hb
  | cons hab _ ih =>
    rcases List.mem_cons.mp hb with rfl | hb
    · exact ⟨_, List.mem_cons_self, hab⟩
    · obtain ⟨a, ha, hab⟩ := ih hb
      exact ⟨a, List.mem_cons_of_mem _ ha, hab⟩

/-- What takes the place of a guarded import consists of a statement for each of its bindings. -/
theorem exists_scopedStatements {kind : ScopedImport} {specifier text : String}
    {bs : List RuntimeImport} (h : kind.statements specifier bs = .ok text) :
    ∃ texts, text = String.join texts ∧
      List.Forall₂ (fun b t ↦ kind.statement specifier b = .ok t) bs texts := by
  unfold ScopedImport.statements at h
  cases htexts : bs.mapM (kind.statement specifier) with
  | error e => rw [htexts] at h; cases h
  | ok texts =>
    rw [htexts] at h
    cases h
    exact ⟨texts, rfl, forall₂_of_mapM htexts⟩

theorem wholeLines_scopedStatement {kind : ScopedImport} {specifier text : String}
    {b : RuntimeImport} (h : kind.statement specifier b = .ok text) : WholeLines text.toList := by
  have hvariable : ∀ n s e f, WholeLines (ScopedImport.guardedVariable n s e f).toList :=
    fun _ _ _ _ ↦ wholeLines_append_string _ rfl
  unfold ScopedImport.statement at h
  split at h
  · unfold ScopedImport.helperStatement at h
    split at h
    · split at h
      · cases h
        exact hvariable _ _ _ _
      · cases h
    · cases h
  · unfold ScopedImport.resourceStatement at h
    split at h
    · cases h
      exact hvariable _ _ _ _
    · cases h

theorem wholeLines_scopedStatements {kind : ScopedImport} {specifier text : String}
    {bs : List RuntimeImport} (h : kind.statements specifier bs = .ok text) :
    WholeLines text.toList := by
  obtain ⟨texts, rfl, hall⟩ := exists_scopedStatements h
  refine WholeLines.join fun t ht ↦ ?_
  obtain ⟨b, -, hb⟩ := exists_of_mem_forall₂ hall ht
  exact wholeLines_scopedStatement hb

/-- Every statement for an import ends its line, if the text of a guarded import does. -/
theorem ImportStatement.wholeLines_text {s : ImportStatement}
    (h : ∀ text, s = .guarded text → WholeLines text.toList) : WholeLines s.text.toList := by
  cases s with
  | effect => exact wholeLines_append_string _ rfl
  | fields => exact wholeLines_append_string _ rfl
  | defaultOnly => exact wholeLines_append_string _ rfl
  | reference => exact wholeLines_append_string _ rfl
  | guarded text => exact h text rfl

/-! ## The run of the conversion -/

/-- The statements that a draft has collected for imports end their lines. -/
def Draft.ImportsEndLines (d : Draft) : Prop := ∀ s ∈ d.imports, WholeLines s.text.toList

namespace Draft.ImportsEndLines

variable {features : Features} {source : List Char} {d : Draft}

theorem addImport (h : d.ImportsEndLines) {s : ImportStatement} (hs : WholeLines s.text.toList) :
    (d.addImport s).ImportsEndLines := by
  intro t ht
  rcases List.mem_append.mp ht with ht | ht
  · exact h t ht
  · rw [List.mem_singleton.mp ht]
    exact hs

theorem reexport (h : d.ImportsEndLines) (specifier : String) :
    (d.reexport specifier).2.ImportsEndLines :=
  addImport (d := { d with names := _ }) h (ImportStatement.wholeLines_text nofun)

/-- One statement. -/
theorem convert (h : d.ImportsEndLines) {d' : Draft} {promises : List Edit} {n : Node}
    (hd : d.convert features source promises n = .ok d') : d'.ImportsEndLines := by
  cases step_of_convert hd with
  | guardedImport _ _ htext =>
    refine h.addImport (ImportStatement.wholeLines_text fun text heq ↦ ?_)
    cases heq
    exact wholeLines_scopedStatements htext
  | @replacedImport _ _ _ s names _ _ _ _ hs =>
    refine addImport (d := { d with names }) h (ImportStatement.wholeLines_text ?_)
    cases hs <;> exact nofun
  | listFrom => exact reexport (d := d.marked) h _
  | wholeModule => exact reexport (d := d.marked) h _
  | everything => exact reexport (d := d.marked) h _
  | _ => exact h

end Draft.ImportsEndLines

/-! ## Headers -/

section Header

variable {features : Features} {source : List Char} {m : Module} {d : Draft}

theorem importsEndLines_of_draft (h : draft features source m = .ok d) : d.ImportsEndLines := by
  obtain ⟨r, hrun, rfl⟩ := exists_run_of_draft h
  exact foldlM_induction (fun _ u ↦ u.ImportsEndLines) (fun s hs ↦ by cases hs)
    (fun _ _ _ _ hu hv ↦ hu.convert hv) hrun

theorem wholeLines_preamble (features : Features) (d : Draft) :
    WholeLines (preamble features d).toList := by
  have hif : ∀ (b : Bool) (text : String), WholeLines text.toList →
      WholeLines (if b then text else "").toList := by
    rintro (_ | _) text htext
    · exact .inl rfl
    · exact htext
  have hhelper : ∀ (name : Option String) (f : String → String), (∀ n, WholeLines (f n).toList) →
      WholeLines ((name.map f).getD "").toList := by
    rintro (_ | n) f hf
    · exact .inl rfl
    · exact hf n
  rw [preamble, String.toList_append, String.toList_append, String.toList_append]
  exact (((hif _ _ (.inr rfl)).append (hif _ _ (.inr rfl))).append
    (hhelper _ _ fun n ↦ wholeLines_append_string _ rfl)).append
    (hhelper _ _ fun n ↦ wholeLines_append_string _ rfl)

/-- The header of a draft is empty or ends in a line feed. -/
theorem wholeLines_header (h : draft features source m = .ok d) :
    WholeLines (header features d).toList := by
  rw [header, String.toList_append, String.toList_append]
  -- Preamble, moved calls, imports: each part is made of texts that end their lines.
  refine ((wholeLines_preamble features d).append (.join fun t ht ↦ ?_)).append
    (.join fun t ht ↦ ?_)
  · obtain ⟨call, -, rfl⟩ := List.mem_map.mp ht
    exact wholeLines_append_string _ rfl
  · obtain ⟨s, hs, rfl⟩ := List.mem_map.mp ht
    exact importsEndLines_of_draft h s hs

end Header

/-! ## Converted scripts -/

section Convert

variable {config : ModuleConfig} {filename code : String} {input : Option SourceMap}
  {unit : ScriptUnit} {parts : Parts}

theorem exists_draft_of_partsOf (h : partsOf config filename code = .ok parts) :
    ∃ m d, parse false code.toList = some m ∧
      draft (Features.ofConfig config) code.toList m = .ok d ∧
      parts = d.parts (Features.ofConfig config) code.toList := by
  unfold partsOf at h
  dsimp only at h
  cases hparse : parse false code.toList with
  | none => rw [hparse] at h; cases h
  | some m =>
    rw [hparse] at h
    dsimp only at h
    cases hdraft : draft (Features.ofConfig config) code.toList m with
    | error e => rw [hdraft] at h; cases h
    | ok d =>
      rw [hdraft] at h
      cases h
      exact ⟨m, d, rfl, hdraft, rfl⟩

theorem exists_freshLine_eq (text : List Char) :
    ∃ gap, (gap = [] ∨ gap = ['\n']) ∧ freshLine text = text ++ gap := by
  unfold freshLine
  split
  · exact ⟨[], .inl rfl, (List.append_nil text).symm⟩
  · exact ⟨['\n'], .inr rfl, rfl⟩

/-- The parts of a script follow each other, with at most a line feed in front of the last one. -/
theorem Parts.exists_text_eq (p : Parts) :
    ∃ gap, (gap = [] ∨ gap = ['\n']) ∧
      p.text = p.header ++ dropMapComments p.body ++ gap ++ p.footer := by
  unfold Parts.text
  dsimp only
  split
  · next hempty =>
    refine ⟨[], .inl rfl, ?_⟩
    rw [List.isEmpty_iff.mp hempty, List.append_nil, List.append_nil]
  · obtain ⟨gap, hgap, htext⟩ := exists_freshLine_eq (p.header ++ dropMapComments p.body)
    exact ⟨gap, hgap, by rw [htext]⟩

/-- What is handed back: the text of the parts, with the comment that carries the map on a last line
of its own if the configuration asks for it, and the map. -/
theorem code_of_convert (h : convert config filename code input = .ok unit) :
    ∃ parts, partsOf config filename code = .ok parts ∧
      unit.code.toList = (if config.sourceMaps.carries then
        freshLine parts.text ++ (mapOf parts filename code input).comment.toList else parts.text) ∧
      unit.map = if config.sourceMaps.handsBack then some (mapOf parts filename code input)
        else none := by
  unfold convert at h
  cases hparts : partsOf config filename code with
  | error e => rw [hparts] at h; cases h
  | ok parts =>
    rw [hparts] at h
    cases h
    exact ⟨parts, rfl, String.toList_ofList, rfl⟩

/-- The header and the body stand at the start of the script. -/
theorem exists_parts_of_convert (h : convert config filename code input = .ok unit) :
    ∃ parts tail, partsOf config filename code = .ok parts ∧
      unit.code.toList = parts.header ++ dropMapComments parts.body ++ tail ∧
      unit.map = if config.sourceMaps.handsBack then some (mapOf parts filename code input)
        else none := by
  obtain ⟨parts, hparts, hcode, hmap⟩ := code_of_convert h
  obtain ⟨gap, -, htext⟩ := parts.exists_text_eq
  rw [hcode, htext]
  split
  · obtain ⟨line, -, hline⟩ := exists_freshLine_eq
      (parts.header ++ dropMapComments parts.body ++ gap ++ parts.footer)
    refine ⟨parts, gap ++ (parts.footer ++ (line ++ (mapOf parts filename code input).comment.toList)),
      hparts, ?_, hmap⟩
    rw [hline]
    simp only [List.append_assoc]
  · exact ⟨parts, gap ++ parts.footer, hparts, by simp only [List.append_assoc], hmap⟩

/-- A script with a draft is converted. -/
theorem exists_convert_of_draft {m : Module} {d : Draft}
    (hparse : parse false code.toList = some m)
    (hdraft : draft (Features.ofConfig config) code.toList m = .ok d) :
    ∃ unit, convert config filename code input = .ok unit := by
  have hparts : partsOf config filename code
      = .ok (d.parts (Features.ofConfig config) code.toList) := by
    unfold partsOf
    dsimp only
    rw [hparse]
    dsimp only
    rw [hdraft]
    rfl
  unfold convert
  rw [hparts]
  exact ⟨_, rfl⟩

/-- A script that does not carry its map is the text of the parts of its draft. -/
theorem exists_code_of_draft {m : Module} {d : Draft} (hparse : parse false code.toList = some m)
    (hdraft : draft (Features.ofConfig config) code.toList m = .ok d)
    (hcarries : config.sourceMaps.carries = false) :
    ∃ unit, convert config filename code input = .ok unit ∧
      unit.code.toList = (d.parts (Features.ofConfig config) code.toList).text := by
  obtain ⟨unit, hconvert⟩ : ∃ unit, convert config filename code input = .ok unit :=
    exists_convert_of_draft hparse hdraft
  obtain ⟨parts, hparts, hcode, -⟩ := code_of_convert hconvert
  obtain ⟨m', d', hparse', hdraft', rfl⟩ := exists_draft_of_partsOf hparts
  rw [hparse] at hparse'
  cases hparse'
  rw [hdraft] at hdraft'
  cases hdraft'
  exact ⟨unit, hconvert, by rw [hcode, hcarries, if_neg Bool.false_ne_true]⟩

/-- A converted script has a draft, and begins with the header and the body of that. -/
theorem exists_draft_of_convert {m : Module} (hparse : parse false code.toList = some m)
    (h : convert config filename code input = .ok unit) :
    ∃ d tail, draft (Features.ofConfig config) code.toList m = .ok d ∧
      unit.code.toList = (d.parts (Features.ofConfig config) code.toList).header
        ++ dropMapComments (d.parts (Features.ofConfig config) code.toList).body ++ tail := by
  obtain ⟨parts, tail, hparts, hcode, -⟩ := exists_parts_of_convert h
  obtain ⟨m', d, hparse', hdraft, rfl⟩ := exists_draft_of_partsOf hparts
  rw [hparse] at hparse'
  cases hparse'
  exact ⟨d, tail, hdraft, hcode⟩

theorem wholeLines_of_partsOf (h : partsOf config filename code = .ok parts) :
    WholeLines parts.header := by
  obtain ⟨m, d, -, hdraft, rfl⟩ := exists_draft_of_partsOf h
  exact wholeLines_header hdraft

end Convert

end Downlevel.CommonJs
