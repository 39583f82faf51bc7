import Downlevel.Proofs.CommonJs.ExportObject
import Mathlib.Data.List.Count

/-!
# Exports of a script

What a script exports, as it is written: values under names, exports of other modules under names,
and everything that another module exports. What becomes of them depends on what the other modules
hold, and on nothing else than the order of the writes of each key.
-/

namespace Downlevel.CommonJs

open Script

/-! ## Exports -/

/-- One export of a script. -/
inductive OwnExport where
  /-- The value of a name of the script. -/
  | name (exported localName : String)
  /-- An export of another module. -/
  | member (exported specifier imported : String)
  /-- Another module as one object. -/
  | whole (exported specifier : String)
  /-- Everything that another module exports. -/
  | everything (specifier : String)
  deriving DecidableEq, Repr

/-- The name of an export, if it has one of its own. -/
def OwnExport.exported? : OwnExport → Option String
  | name k _ | member k _ _ | whole k _ => some k
  | everything _ => none

/-- Whether an export is made by assigning a value. -/
def OwnExport.isAssigned : OwnExport → Bool
  | name .. | whole .. => true
  | member .. | everything _ => false

/-- The names that a list of exports gives itself. -/
def exportNames (own : List OwnExport) : List String := own.filterMap OwnExport.exported?

/-- The exports of a statement, but for a default export that is assigned in its place. -/
def ownExports : Node → List OwnExport
  | .item _ _ (.exportDefault _ value) =>
    match value with
    | .functionDeclaration _ | .classDeclaration _ =>
      match value.declaredNames with
      | n :: _ => [.name "default" n]
      | [] => []
    | _ => []
  | .item _ _ (.exportDeclaration _ d) =>
    if isRuntimeDeclaration d then d.declaredNames.map fun n ↦ .name n n else []
  | .item _ _ (.exportList l) =>
    if l.isType then []
    else match l.source with
      | some s => (l.specifiers.filter (!·.isType)).map fun e ↦
          .member e.exported.text s.value e.source.text
      | none => (l.specifiers.filter (!·.isType)).map fun e ↦ .name e.exported.text e.source.text
  | .item _ _ (.exportAll a) =>
    if a.isType then []
    else match a.exported with
      | some k => [.whole k.text a.source.value]
      | none => [.everything a.source.value]
  | _ => []

/-- Whether a statement is a default export that is assigned in its place. -/
def assignsDefault : Node → Bool
  | .item _ _ (.exportDefault _ value) =>
    match value with
    | .typeDeclaration _ => false
    | .functionDeclaration _ | .classDeclaration _ => value.declaredNames.isEmpty
    | _ => true
  | _ => false

/-! ## What exports write -/

variable {V : Type}

namespace World

variable (W : World V)

/-- The name and the value of an export with a name of its own. -/
def value? : OwnExport → Option (String × V)
  | .name k n => some (k, W.scope n)
  | .member k s i => some (k, (W.required s).member i)
  | .whole k s => some (k, (W.required s).self)
  | .everything _ => none

/-- What an export writes. The default export and the mark of another module are not passed on. -/
def writes : OwnExport → List (String × Write V)
  | .name k n => [(k, .assign (W.scope n))]
  | .member k s i => [(k, .define ((W.required s).member i))]
  | .whole k s => [(k, .assign (W.required s).self)]
  | .everything s =>
    ((W.required s).keys.filter fun key ↦ key != "default" && key != "__esModule").map fun key ↦
      (key, .copy ((W.required s).member key))

/-- The writes of exports to a key, in their order. -/
def writesOf (own : List OwnExport) (key : String) : List (Write V) :=
  writesTo key (own.flatMap W.writes)

/-- The object of exports when the last statements of a script begin to run: it may have the mark,
which cannot be changed, and the default export. -/
def startObject (isMarked hasDefault : Bool) : ExportObject V := fun key ↦
  if key = "__esModule" then if isMarked then some (.data W.mark false false) else none
  else if key = "default" then if hasDefault then some (.data W.defaultValue true true) else none
  else none

/-- What a key of the object of exports has to read as in the end. -/
structure ReadsRight (own : List OwnExport) (hasDefault : Bool) (key : String)
    (slot : Option (Slot V)) : Prop where
  /-- An export with a name of its own has its value. -/
  named : ∀ e ∈ own, ∀ v, W.value? e = some (key, v) → W.Has key slot v
  /-- So has a default export that was assigned in its place. -/
  assigned : key = "default" → hasDefault = true → W.Has key slot W.defaultValue
  /-- A key that a single module passes on has the value of that module. -/
  passedOn : key ≠ "default" → key ≠ "__esModule" → key ∉ exportNames own →
    ∀ s, .everything s ∈ own → key ∈ (W.required s).keys →
      (∀ s', .everything s' ∈ own → key ∈ (W.required s').keys → s' = s) →
        W.Has key slot ((W.required s).member key)

end World

/-! ## Writes of one key -/

section Writes

variable {W : World V} {own : List OwnExport} {key : String} {w : Write V}

theorem mem_writesTo {ps : List (String × Write V)} : w ∈ writesTo key ps ↔ (key, w) ∈ ps := by
  rw [writesTo, List.mem_filterMap]
  constructor
  · rintro ⟨⟨k, x⟩, hp, hx⟩
    by_cases hk : k = key
    · rw [if_pos hk] at hx
      cases hx
      rwa [← hk]
    · rw [if_neg hk] at hx
      cases hx
  · exact fun h ↦ ⟨_, h, if_pos rfl⟩

theorem mem_writesOf : w ∈ W.writesOf own key ↔ ∃ e ∈ own, (key, w) ∈ W.writes e := by
  rw [World.writesOf, mem_writesTo, List.mem_flatMap]

/-- An export with a name of its own writes its value under that name. -/
theorem value?_eq_some {e : OwnExport} {v : V} :
    W.value? e = some (key, v) ↔
      (key, .assign v) ∈ W.writes e ∨ (key, .define v) ∈ W.writes e := by
  cases e <;> simp [World.value?, World.writes]
  all_goals exact and_congr eq_comm eq_comm

theorem exported?_of_value? {e : OwnExport} {v : V} (h : W.value? e = some (key, v)) :
    e.exported? = some key := by
  cases e <;> simp_all [World.value?, OwnExport.exported?]

/-- What is copied to a key comes from an export of everything. -/
theorem mem_writes_copy {e : OwnExport} {v : V} : (key, .copy v) ∈ W.writes e ↔
    ∃ s, e = .everything s ∧ key ∈ (W.required s).keys ∧ key ≠ "default" ∧ key ≠ "__esModule" ∧
      v = (W.required s).member key := by
  cases e with
  | everything s =>
    simp only [World.writes, List.mem_map, List.mem_filter, Bool.and_eq_true, bne_iff_ne, ne_eq,
      Prod.mk.injEq, Write.copy.injEq, OwnExport.everything.injEq]
    constructor
    · rintro ⟨k, ⟨hk, hdefault, hmark⟩, rfl, rfl⟩
      exact ⟨s, rfl, hk, hdefault, hmark, rfl⟩
    · rintro ⟨s', rfl, hk, hdefault, hmark, rfl⟩
      exact ⟨key, ⟨hk, hdefault, hmark⟩, rfl, rfl⟩
  | name k n => simp [World.writes]
  | member k s i => simp [World.writes]
  | whole k s => simp [World.writes]

theorem filter_isExplicit_everything (W : World V) (s key : String) :
    (writesTo key (W.writes (.everything s))).filter Write.isExplicit = [] := by
  refine List.filter_eq_nil_iff.mpr fun w hw ↦ ?_
  rw [mem_writesTo, World.writes, List.mem_map] at hw
  obtain ⟨k, -, hk⟩ := hw
  rw [← (Prod.mk.inj hk).2]
  exact Bool.false_ne_true

theorem exists_writes_eq (W : World V) {e : OwnExport} {k : String} (h : e.exported? = some k) :
    ∃ w, w.isExplicit = true ∧ W.writes e = [(k, w)] := by
  cases e with
  | name k' n =>
    cases h
    exact ⟨.assign _, rfl, rfl⟩
  | member k' s i =>
    cases h
    exact ⟨.define _, rfl, rfl⟩
  | whole k' s =>
    cases h
    exact ⟨.assign _, rfl, rfl⟩
  | everything s => cases h

/-- A key is written by as many exports with a name of their own as have it for their name. -/
theorem length_filter_isExplicit (W : World V) (own : List OwnExport) (key : String) :
    ((W.writesOf own key).filter Write.isExplicit).length = (exportNames own).count key := by
  induction own with
  | nil => rfl
  | cons e own ih =>
    have happend : W.writesOf (e :: own) key = writesTo key (W.writes e) ++ W.writesOf own key := by
      rw [World.writesOf, List.flatMap_cons, writesTo, List.filterMap_append]
      rfl
    rw [happend, List.filter_append, List.length_append, ih]
    cases hname : e.exported? with
    | none =>
      have hnames : exportNames (e :: own) = exportNames own := List.filterMap_cons_none hname
      cases e with
      | everything s => rw [filter_isExplicit_everything, hnames, List.length_nil, Nat.zero_add]
      | name k n => cases hname
      | member k s i => cases hname
      | whole k s => cases hname
    | some k =>
      have hnames : exportNames (e :: own) = k :: exportNames own := List.filterMap_cons_some hname
      obtain ⟨w, hw, hwrites⟩ := exists_writes_eq W hname
      rw [hnames, hwrites, List.count_cons, Nat.add_comm]
      by_cases hk : k = key <;> simp [writesTo, hk, hw]

theorem mem_exportNames : key ∈ exportNames own ↔ ∃ e ∈ own, e.exported? = some key :=
  List.mem_filterMap

/-- A key that no export is named after is only copied to. -/
theorem isExplicit_eq_false_of_notMem (hkey : key ∉ exportNames own) (hw : w ∈ W.writesOf own key) :
    w.isExplicit = false := by
  have hcount := length_filter_isExplicit W own key
  rw [List.count_eq_zero_of_not_mem hkey, List.length_eq_zero_iff, List.filter_eq_nil_iff] at hcount
  simpa using hcount w hw

/-- Nothing is copied to the default export and to the mark. -/
theorem isExplicit_eq_true_of_reserved (hkey : key = "default" ∨ key = "__esModule")
    (hw : w ∈ W.writesOf own key) : w.isExplicit = true := by
  cases w with
  | assign v => rfl
  | define v => rfl
  | copy v =>
    obtain ⟨e, -, hw⟩ := mem_writesOf.mp hw
    obtain ⟨s, -, -, hdefault, hmark, -⟩ := mem_writes_copy.mp hw
    exact absurd hkey (not_or_intro hdefault hmark)

end Writes

/-! ## When all exports read right -/

section ReadsRight

variable {W : World V} {own : List OwnExport} {isMarked hasDefault : Bool} {key : String}
  {slot : Option (Slot V)}

theorem writesOf_eq_nil (hkey : key = "default" ∨ key = "__esModule") (hown : key ∉ exportNames own) :
    W.writesOf own key = [] := by
  refine List.eq_nil_iff_forall_not_mem.mpr fun w hw ↦ ?_
  have htrue := isExplicit_eq_true_of_reserved hkey hw
  rw [isExplicit_eq_false_of_notMem hown hw] at htrue
  cases htrue

theorem not_value?_of_notMem (hown : key ∉ exportNames own) {e : OwnExport} (he : e ∈ own) (v : V) :
    W.value? e ≠ some (key, v) := fun h ↦
  hown (mem_exportNames.mpr ⟨e, he, exported?_of_value? h⟩)

/-- For a key that starts out without a value, only its writes count. -/
theorem readsRight_iff (hdefault : key = "default" → hasDefault = false)
    (hrun : W.putAll key none (W.writesOf own key) = .ok slot) :
    W.ReadsRight own hasDefault key slot ↔ ∀ v, Write.assign v ∈ W.writesOf own key ∨
      Write.define v ∈ W.writesOf own key → W.Has key slot v := by
  constructor
  · intro h v hv
    rw [mem_writesOf, mem_writesOf] at hv
    rcases hv with ⟨e, he, hv⟩ | ⟨e, he, hv⟩
    · exact h.named e he v (value?_eq_some.mpr (.inl hv))
    · exact h.named e he v (value?_eq_some.mpr (.inr hv))
  · intro h
    refine ⟨fun e he v hv ↦ h v ?_, fun hkey htrue ↦ ?_, fun hd hm hown s hs hkeys honly ↦ ?_⟩
    · rw [mem_writesOf, mem_writesOf]
      exact (value?_eq_some.mp hv).imp (⟨e, he, ·⟩) (⟨e, he, ·⟩)
    · rw [hdefault hkey] at htrue
      cases htrue
    · -- All that is copied to the key comes from the one module that has it.
      refine World.has_of_copies (fun w hw ↦ ?_) (List.ne_nil_of_mem (mem_writesOf.mpr
        ⟨_, hs, mem_writes_copy.mpr ⟨s, rfl, hkeys, hd, hm, rfl⟩⟩)) hrun
      have hcopied := isExplicit_eq_false_of_notMem hown hw
      cases w with
      | assign v => cases hcopied
      | define v => cases hcopied
      | copy v =>
        obtain ⟨e, he, hw⟩ := mem_writesOf.mp hw
        obtain ⟨s', rfl, hkeys', -, -, rfl⟩ := mem_writes_copy.mp hw
        rw [honly s' he hkeys']

theorem notMem_assign_of_proto (hproto : ∀ e ∈ own, e.isAssigned = true →
      e.exported? ≠ some "__proto__") (hkey : key = "__proto__") (v : V) :
    Write.assign v ∉ W.writesOf own key := by
  intro hv
  obtain ⟨e, he, hv⟩ := mem_writesOf.mp hv
  refine hproto e he ?_ (hkey ▸ exported?_of_value? (value?_eq_some.mpr (.inl hv)))
  cases e with
  | name k n => rfl
  | whole k s => rfl
  | member k s i => simp [World.writes] at hv
  | everything s =>
    simp [World.writes] at hv

/-- A key that starts out without a value reads right exactly if its writes do no harm. -/
theorem exists_readsRight_iff_of_none (hnodup : (exportNames own).Nodup)
    (hproto : ∀ e ∈ own, e.isAssigned = true → e.exported? ≠ some "__proto__")
    (hdefault : key = "default" → hasDefault = false) :
    (∃ slot, W.putAll key none (W.writesOf own key) = .ok slot ∧
        W.ReadsRight own hasDefault key slot)
      ↔ Harmless W key (W.writesOf own key) := by
  have hone : ((W.writesOf own key).filter Write.isExplicit).length ≤ 1 := by
    rw [length_filter_isExplicit]
    exact List.nodup_iff_count_le_one.mp hnodup key
  rw [← World.harmless_iff hone fun hkey v ↦ notMem_assign_of_proto hproto hkey v]
  exact exists_congr fun slot ↦ and_congr_right fun hrun ↦ readsRight_iff hdefault hrun

/-- The mark cannot be written once it is there. -/
theorem putAll_mark_ne_ok (hown : "__esModule" ∈ exportNames own) :
    W.putAll "__esModule" (some (.data W.mark false false)) (W.writesOf own "__esModule")
      ≠ .ok slot := by
  intro hrun
  cases hws : W.writesOf own "__esModule" with
  | nil =>
    have hcount := length_filter_isExplicit W own "__esModule"
    rw [hws] at hcount
    exact absurd (List.count_pos_iff.mpr hown) (by rw [← hcount]; simp)
  | cons w ws =>
    have hmem : w ∈ W.writesOf own "__esModule" := hws ▸ List.mem_cons_self
    have hexplicit := isExplicit_eq_true_of_reserved (.inr rfl) hmem
    have hput : W.put "__esModule" (some (.data W.mark false false)) w = .error .typeError := by
      cases w with
      | assign v => rfl
      | define v => rfl
      | copy v => cases hexplicit
    rw [hws, World.putAll_cons, hput] at hrun
    cases hrun

/-- Where no export writes the default export or the mark, that reads right. -/
theorem exists_readsRight_iff_of_notMem (hown : key ∉ exportNames own)
    (hkey : key = "default" ∨ key = "__esModule") {start : Option (Slot V)}
    (hstart : key = "default" → hasDefault = true → W.Has key start W.defaultValue) :
    (∃ slot, W.putAll key start (W.writesOf own key) = .ok slot ∧
        W.ReadsRight own hasDefault key slot)
      ↔ (key = "__esModule" → key ∉ exportNames own) ∧ Harmless W key (W.writesOf own key) := by
  rw [writesOf_eq_nil hkey hown]
  refine ⟨fun _ ↦ ⟨fun _ ↦ hown, .copies [] List.Pairwise.nil⟩, fun _ ↦ ⟨start, rfl, ?_⟩⟩
  refine ⟨fun e he v hv ↦ absurd hv (not_value?_of_notMem hown he v), hstart, fun hd hm ↦ ?_⟩
  exact absurd hkey (not_or_intro hd hm)

/-- One key of the object of exports reads right exactly if its writes do no harm, and it is not the
mark. -/
theorem exists_readsRight_iff (hnodup : (exportNames own).Nodup)
    (hdefault : hasDefault = true → "default" ∉ exportNames own) (hmarked : own ≠ [] → isMarked = true)
    (hproto : ∀ e ∈ own, e.isAssigned = true → e.exported? ≠ some "__proto__") :
    (∃ slot, W.putAll key (W.startObject isMarked hasDefault key) (W.writesOf own key) = .ok slot ∧
        W.ReadsRight own hasDefault key slot)
      ↔ (key = "__esModule" → key ∉ exportNames own) ∧ Harmless W key (W.writesOf own key) := by
  by_cases hmark : key = "__esModule"
  · subst hmark
    by_cases hown : "__esModule" ∈ exportNames own
    · obtain ⟨e, he, -⟩ := mem_exportNames.mp hown
      rw [World.startObject, if_pos rfl, if_pos (hmarked (List.ne_nil_of_mem he))]
      exact ⟨fun ⟨_, hrun, _⟩ ↦ absurd hrun (putAll_mark_ne_ok hown), fun h ↦ absurd hown (h.1 rfl)⟩
    · exact exists_readsRight_iff_of_notMem hown (.inr rfl) fun h ↦ absurd h (by decide)
  · by_cases hassigned : key = "default" ∧ hasDefault = true
    · obtain ⟨rfl, rfl⟩ := hassigned
      refine exists_readsRight_iff_of_notMem (hdefault rfl) (.inl rfl) fun _ _ ↦ ?_
      rw [World.startObject, if_neg hmark, if_pos rfl, if_pos rfl]
      exact W.has_some.mpr (.inl rfl)
    · -- Every other key starts out without a value.
      have hstart : W.startObject isMarked hasDefault key = none := by
        rw [World.startObject, if_neg hmark]
        split
        · next hkey => exact if_neg fun htrue ↦ hassigned ⟨hkey, htrue⟩
        · rfl
      rw [hstart, exists_readsRight_iff_of_none hnodup hproto fun hkey ↦
        Bool.not_eq_true _ ▸ fun htrue ↦ hassigned ⟨hkey, htrue⟩]
      exact ⟨fun h ↦ ⟨fun hkey ↦ absurd hkey hmark, h⟩, And.right⟩

/-- All exports read right after a run exactly if the mark is not among their names and the writes
of every key do no harm. -/
theorem exists_run_readsRight_iff (hnodup : (exportNames own).Nodup)
    (hdefault : hasDefault = true → "default" ∉ exportNames own) (hmarked : own ≠ [] → isMarked = true)
    (hproto : ∀ e ∈ own, e.isAssigned = true → e.exported? ≠ some "__proto__") :
    (∃ o, W.run (W.startObject isMarked hasDefault) (own.flatMap W.writes) = .ok o ∧
        ∀ key, W.ReadsRight own hasDefault key (o key))
      ↔ "__esModule" ∉ exportNames own ∧ ∀ key, Harmless W key (W.writesOf own key) := by
  rw [W.exists_run_iff]
  refine (forall_congr' fun key ↦
    exists_readsRight_iff hnodup hdefault hmarked hproto).trans ?_
  rw [forall_and]
  exact and_congr_left' ⟨fun h ↦ h _ rfl, fun h key hkey ↦ hkey ▸ h⟩

end ReadsRight

end Downlevel.CommonJs
