import Downlevel.Proofs.CommonJs.Collected
import Mathlib.Data.List.Nodup
import Mathlib.Logic.Function.Basic

/-!
# The object of exports

What the statements at the end of a converted script do to the object of exports. A value is
assigned, an export of another module becomes a getter that cannot be redefined, and an export of
everything makes a getter of every key that does not have the same value already. Assigning to a
getter throws, and so does redefining a property that is not configurable.

No statement looks at another key than the one it writes. So a run over the whole object falls apart
into runs over its keys, and everything is shown for one key at a time.
-/

namespace Downlevel.CommonJs

/-! ## Objects and worlds -/

/-- What a statement can throw. -/
inductive Thrown where
  | typeError
  | referenceError
  deriving DecidableEq, Repr

/-- A property with what reading it gives. -/
inductive Slot (V : Type) where
  | data (value : V) (isWritable isConfigurable : Bool)
  | getter (value : V) (isConfigurable : Bool)
  deriving DecidableEq

/-- What reading a property gives. -/
def Slot.value {V : Type} : Slot V → V
  | data v _ _ | getter v _ => v

/-- Whether a property can be redefined. -/
def Slot.isConfigurable {V : Type} : Slot V → Bool
  | data _ _ c | getter _ c => c

/-- What a reference to a module refers to: the object itself, its enumerable keys, and what it has
under a key. -/
structure ModuleObject (V : Type) where
  self : V
  keys : List String
  member : String → V

/-- What is there when the last statements of a script run. -/
structure World (V : Type) where
  /-- The values of the names of the script. -/
  scope : String → V
  /-- The modules that it loads, by their specifiers. -/
  required : String → ModuleObject V
  /-- What the body has assigned to the default export, if it assigns anything to it. -/
  defaultValue : V
  /-- The value of the mark of converted modules. -/
  mark : V
  /-- Strict equality; there are values that do not equal themselves. -/
  same : V → V → Bool
  same_symm : ∀ {u v}, same u v = true → same v u = true
  same_trans : ∀ {u v w}, same u v = true → same v w = true → same u w = true
  /-- What the object of exports inherits. -/
  inherited : String → Option V
  /-- An assignment to `__proto__` does not write a property; what it does is left open. -/
  assignPrototype : V → Except Thrown (Option (Slot V))

/-- The object of exports, with its own properties only. -/
abbrev ExportObject (V : Type) := String → Option (Slot V)

variable {V : Type}

namespace World

variable (W : World V)

/-- What a key reads as. -/
def read (key : String) (slot : Option (Slot V)) : Option V :=
  (slot.map Slot.value).or (W.inherited key)

/-- Whether two values are the same one, or equal. -/
def Agrees (u v : V) : Prop := u = v ∨ W.same u v = true

/-- Whether a key reads as a value. -/
def Has (key : String) (slot : Option (Slot V)) (v : V) : Prop :=
  ∃ u, W.read key slot = some u ∧ W.Agrees u v

/-- Whether the object of exports inherits a value that equals a given one. -/
def inherits (key : String) (v : V) : Bool := (W.inherited key).any (W.same · v)

theorem Agrees.trans {W : World V} {u v w : V} (huv : W.Agrees u v) (hvw : W.Agrees v w) :
    W.Agrees u w := by
  rcases huv with rfl | huv
  · exact hvw
  · rcases hvw with rfl | hvw
    · exact .inr huv
    · exact .inr (W.same_trans huv hvw)

theorem Agrees.symm {W : World V} {u v : V} (h : W.Agrees u v) : W.Agrees v u :=
  h.imp Eq.symm W.same_symm

theorem has_some {key : String} {slot : Slot V} {v : V} :
    W.Has key (some slot) v ↔ W.Agrees slot.value v :=
  ⟨fun ⟨_, hu, huv⟩ ↦ Option.some.inj hu ▸ huv, fun h ↦ ⟨_, rfl, h⟩⟩

theorem has_none {key : String} {v : V} (h : W.inherits key v = true) : W.Has key none v := by
  obtain ⟨u, hu, huv⟩ := (Option.any_eq_true ..).mp h
  exact ⟨u, by rw [read, Option.map_none, Option.none_or, hu], .inr huv⟩

end World

/-! ## Writing one key -/

/-- What a statement does to one key. -/
inductive Write (V : Type) where
  /-- Assigns a value. -/
  | assign (value : V)
  /-- Defines a getter of a value. -/
  | define (value : V)
  /-- Defines a getter of a value, unless the key reads as an equal value. -/
  | copy (value : V)
  deriving DecidableEq

/-- Whether a write is that of an export with a name of its own. -/
def Write.isExplicit : Write V → Bool
  | assign _ | define _ => true
  | copy _ => false

/-- Defines a getter. A property that is there stays configurable. -/
def defineGetter (slot : Option (Slot V)) (v : V) : Except Thrown (Option (Slot V)) :=
  match slot with
  | none => .ok (some (.getter v false))
  | some s => if s.isConfigurable then .ok (some (.getter v true)) else .error .typeError

namespace World

variable (W : World V)

/-- Assigns a value, in strict mode. -/
def assign (key : String) (slot : Option (Slot V)) (v : V) : Except Thrown (Option (Slot V)) :=
  match slot with
  | none => if key = "__proto__" then W.assignPrototype v else .ok (some (.data v true true))
  | some (.data _ true c) => .ok (some (.data v true c))
  | some _ => .error .typeError

/-- Writes a key. -/
def put (key : String) (slot : Option (Slot V)) : Write V → Except Thrown (Option (Slot V))
  | .assign v => W.assign key slot v
  | .define v => defineGetter slot v
  | .copy v => if (W.read key slot).any (W.same · v) then .ok slot else defineGetter slot v

/-- Writes a key several times. -/
def putAll (key : String) (slot : Option (Slot V)) (ws : List (Write V)) :
    Except Thrown (Option (Slot V)) :=
  ws.foldlM (W.put key) slot

theorem putAll_cons (key : String) (slot : Option (Slot V)) (w : Write V) (ws : List (Write V)) :
    W.putAll key slot (w :: ws) = W.put key slot w >>= fun s ↦ W.putAll key s ws :=
  List.foldlM_cons

theorem putAll_append (key : String) (slot : Option (Slot V)) (ws ws' : List (Write V)) :
    W.putAll key slot (ws ++ ws') = W.putAll key slot ws >>= fun s ↦ W.putAll key s ws' :=
  List.foldlM_append

end World

/-! ## Runs over the object -/

/-- The writes of one key, in their order. -/
def writesTo (key : String) (ps : List (String × Write V)) : List (Write V) :=
  ps.filterMap fun p ↦ if p.1 = key then some p.2 else none

namespace World

variable (W : World V)

/-- Writes a key of an object. -/
def step (o : ExportObject V) (p : String × Write V) : Except Thrown (ExportObject V) :=
  (W.put p.1 (o p.1) p.2).map fun s ↦ Function.update o p.1 s

/-- Writes keys of an object in order. -/
def run (o : ExportObject V) (ps : List (String × Write V)) : Except Thrown (ExportObject V) :=
  ps.foldlM W.step o

/-- A run over an object is one run over every key. -/
theorem run_eq_ok_iff {o o' : ExportObject V} {ps : List (String × Write V)} :
    W.run o ps = .ok o' ↔ ∀ key, W.putAll key (o key) (writesTo key ps) = .ok (o' key) := by
  induction ps generalizing o with
  | nil =>
    constructor
    · rintro h key
      cases h
      rfl
    · intro h
      have heq : o = o' := funext fun key ↦ Except.ok.inj (h key)
      rw [heq]
      rfl
  | cons p ps ih =>
    obtain ⟨k, w⟩ := p
    have hrun : W.run o ((k, w) :: ps) = W.step o (k, w) >>= fun u ↦ W.run u ps :=
      List.foldlM_cons
    have hself : writesTo k ((k, w) :: ps) = w :: writesTo k ps :=
      List.filterMap_cons_some (if_pos rfl)
    have hother : ∀ key, key ≠ k → writesTo key ((k, w) :: ps) = writesTo key ps :=
      fun key hne ↦ List.filterMap_cons_none (if_neg hne.symm)
    have hput : W.putAll k (o k) (w :: writesTo k ps)
        = W.put k (o k) w >>= fun s ↦ W.putAll k s (writesTo k ps) := W.putAll_cons ..
    rw [hrun, step]
    cases hw : W.put k (o k) w with
    | error e =>
      -- A run that stops at its first write has stopped for that key.
      refine ⟨nofun, fun h ↦ ?_⟩
      have hk := h k
      rw [hself, hput, hw] at hk
      cases hk
    | ok s =>
      -- The step has changed one key, and the others go on with their own writes.
      refine (ih (o := Function.update o k s)).trans (forall_congr' fun key ↦ ?_)
      by_cases hkey : key = k
      · subst hkey
        rw [hself, hput, hw, Function.update_self]
        rfl
      · rw [hother key hkey, Function.update_of_ne hkey]

theorem exists_run_iff {o : ExportObject V} {ps : List (String × Write V)}
    {P : String → Option (Slot V) → Prop} :
    (∃ o', W.run o ps = .ok o' ∧ ∀ key, P key (o' key))
      ↔ ∀ key, ∃ s, W.putAll key (o key) (writesTo key ps) = .ok s ∧ P key s := by
  constructor
  · rintro ⟨o', hrun, hP⟩ key
    exact ⟨o' key, W.run_eq_ok_iff.mp hrun key, hP key⟩
  · intro h
    choose o' hrun hP using h
    exact ⟨o', W.run_eq_ok_iff.mpr hrun, hP⟩

end World

/-! ## Sequences of writes that do no harm -/

/-- The sequences of writes of one key that neither throw nor leave an export with the value of
something else. Of values that are only copied, one comes first and the others equal it. In front of
an export with a name of its own nothing may be copied, except for what is inherited anyway. Behind
a getter everything has to equal it, and behind a value that was assigned only what is copied last
counts. -/
inductive Harmless (W : World V) (key : String) : List (Write V) → Prop
  | copies (us : List V)
      (hus : us.Pairwise fun u v ↦ W.inherits key u = true ∨ W.same u v = true) :
      Harmless W key (us.map .copy)
  | getter (us : List V) (v : V) (ts : List V) (hus : ∀ u ∈ us, W.inherits key u = true)
      (hts : ∀ t ∈ ts, W.same v t = true) :
      Harmless W key (us.map .copy ++ .define v :: ts.map .copy)
  | value (us : List V) (v : V) (ts : List V) (hus : ∀ u ∈ us, W.inherits key u = true)
      (hts : ∀ t ∈ ts.getLast?, W.Agrees v t) :
      Harmless W key (us.map .copy ++ .assign v :: ts.map .copy)

namespace World

variable {W : World V} {key : String}

theorem putAll_inherited {us : List V} (h : ∀ u ∈ us, W.inherits key u = true) :
    W.putAll key none (us.map .copy) = .ok none := by
  induction us with
  | nil => rfl
  | cons u us ih =>
    have hu : W.put key none (.copy u) = .ok none := if_pos (h u List.mem_cons_self)
    rw [List.map_cons, putAll_cons, hu]
    exact ih fun v hv ↦ h v (List.mem_cons_of_mem u hv)

theorem put_copy_some {s : Slot V} {t : V} :
    W.put key (some s) (.copy t)
      = if W.same s.value t then .ok (some s) else defineGetter (some s) t := rfl

/-- Behind a property that cannot be redefined, everything copied has to equal it. -/
theorem putAll_fixed_iff {s : Slot V} (hs : s.isConfigurable = false) {ts : List V}
    {r : Option (Slot V)} :
    W.putAll key (some s) (ts.map .copy) = .ok r ↔
      r = some s ∧ ∀ t ∈ ts, W.same s.value t = true := by
  induction ts with
  | nil =>
    refine ⟨fun h ↦ ?_, fun h ↦ by rw [h.1]; rfl⟩
    cases h
    exact ⟨rfl, nofun⟩
  | cons t ts ih =>
    rw [List.map_cons, putAll_cons, put_copy_some, List.forall_mem_cons]
    by_cases hsame : W.same s.value t = true
    · rw [if_pos hsame]
      exact ih.trans ⟨fun h ↦ ⟨h.1, hsame, h.2⟩, fun h ↦ ⟨h.1, h.2.2⟩⟩
    · have hfails : defineGetter (some s) t = .error .typeError :=
        if_neg (by rw [hs]; exact Bool.false_ne_true)
      rw [if_neg hsame, hfails]
      exact ⟨nofun, fun h ↦ absurd h.2.1 hsame⟩

/-- Behind a property that can be redefined, what is copied last counts. -/
theorem exists_putAll_configurable (W : World V) (key : String) {s : Slot V}
    (hs : s.isConfigurable = true) (ts : List V) :
    ∃ s', W.putAll key (some s) (ts.map .copy) = .ok (some s') ∧
      W.Agrees s'.value (ts.getLast?.getD s.value) := by
  induction ts generalizing s with
  | nil => exact ⟨s, rfl, .inl rfl⟩
  | cons t ts ih =>
    obtain ⟨s₁, hput, hs₁, hagrees⟩ : ∃ s₁, W.put key (some s) (.copy t) = .ok (some s₁) ∧
        s₁.isConfigurable = true ∧ W.Agrees s₁.value t := by
      rw [put_copy_some]
      by_cases hsame : W.same s.value t = true
      · exact ⟨s, if_pos hsame, hs, .inr hsame⟩
      · exact ⟨.getter t true, (if_neg hsame).trans (if_pos hs), rfl, .inl rfl⟩
    obtain ⟨s', hrun, hlast⟩ := ih hs₁
    refine ⟨s', ?_, ?_⟩
    · rw [List.map_cons, putAll_cons, hput]
      exact hrun
    · cases ts with
      | nil => exact hlast.trans hagrees
      | cons t' ts => exact hlast

/-- What copying makes of a key that is not there, if it does not throw. -/
theorem putAll_copies_ok {us : List V} {r : Option (Slot V)}
    (h : W.putAll key none (us.map .copy) = .ok r) :
    (us.Pairwise fun u v ↦ W.inherits key u = true ∨ W.same u v = true) ∧
      (r = none ∧ (∀ u ∈ us, W.inherits key u = true) ∨
        ∃ u ∈ us, W.inherits key u = false ∧ r = some (.getter u false)) := by
  induction us with
  | nil =>
    cases h
    exact ⟨List.Pairwise.nil, .inl ⟨rfl, nofun⟩⟩
  | cons u us ih =>
    rw [List.map_cons, putAll_cons] at h
    rw [List.pairwise_cons]
    by_cases hu : W.inherits key u = true
    · have hput : W.put key none (.copy u) = .ok none := if_pos hu
      rw [hput] at h
      obtain ⟨hpairwise, hcases⟩ := ih h
      refine ⟨⟨fun v _ ↦ .inl hu, hpairwise⟩, hcases.imp ?_ ?_⟩
      · exact fun ⟨hr, hall⟩ ↦ ⟨hr, List.forall_mem_cons.mpr ⟨hu, hall⟩⟩
      · exact fun ⟨v, hv, hrest⟩ ↦ ⟨v, List.mem_cons_of_mem u hv, hrest⟩
    · have hput : W.put key none (.copy u) = .ok (some (.getter u false)) := if_neg hu
      rw [hput] at h
      obtain ⟨hr, hsame⟩ := (putAll_fixed_iff rfl).mp h
      refine ⟨⟨fun v hv ↦ .inr (hsame v hv), ?_⟩,
        .inr ⟨u, List.mem_cons_self, by simpa using hu, hr⟩⟩
      -- Two values that equal the first one equal each other.
      refine List.pairwise_of_forall_mem_list fun v hv w hw ↦ .inr ?_
      exact W.same_trans (W.same_symm (hsame v hv)) (hsame w hw)

theorem exists_putAll_copies {us : List V}
    (h : us.Pairwise fun u v ↦ W.inherits key u = true ∨ W.same u v = true) :
    ∃ r, W.putAll key none (us.map .copy) = .ok r := by
  induction us with
  | nil => exact ⟨none, rfl⟩
  | cons u us ih =>
    rw [List.pairwise_cons] at h
    rw [List.map_cons, putAll_cons]
    by_cases hu : W.inherits key u = true
    · have hput : W.put key none (.copy u) = .ok none := if_pos hu
      rw [hput]
      exact ih h.2
    · have hput : W.put key none (.copy u) = .ok (some (.getter u false)) := if_neg hu
      rw [hput]
      exact ⟨_, (putAll_fixed_iff rfl).mpr ⟨rfl, fun v hv ↦ (h.1 v hv).resolve_left hu⟩⟩

/-! ## Which sequences do no harm -/

theorem exists_map_copy {ws : List (Write V)} (h : ∀ w ∈ ws, w.isExplicit = false) :
    ∃ us : List V, ws = us.map Write.copy := by
  induction ws with
  | nil => exact ⟨[], rfl⟩
  | cons w ws ih =>
    obtain ⟨us, rfl⟩ := ih fun v hv ↦ h v (List.mem_cons_of_mem w hv)
    cases w with
    | copy u => exact ⟨u :: us, rfl⟩
    | assign u => cases h _ List.mem_cons_self
    | define u => cases h _ List.mem_cons_self

/-- With one export of a name of its own at most, there are copies in front of it and behind it. -/
theorem writes_cases {ws : List (Write V)} (h : (ws.filter Write.isExplicit).length ≤ 1) :
    (∃ us : List V, ws = us.map Write.copy) ∨
      ∃ (us : List V) (w : Write V) (ts : List V), w.isExplicit = true ∧
        ws = us.map Write.copy ++ w :: ts.map Write.copy := by
  induction ws with
  | nil => exact .inl ⟨[], rfl⟩
  | cons w ws ih =>
    cases hw : w.isExplicit with
    | true =>
      rw [List.filter_cons_of_pos hw, List.length_cons] at h
      have hnone : ws.filter Write.isExplicit = [] := List.length_eq_zero_iff.mp (by omega)
      obtain ⟨ts, rfl⟩ := exists_map_copy fun v hv ↦ by
        simpa using List.filter_eq_nil_iff.mp hnone v hv
      exact .inr ⟨[], w, ts, hw, rfl⟩
    | false =>
      obtain ⟨u, rfl⟩ : ∃ u, w = .copy u := by
        cases w with
        | copy u => exact ⟨u, rfl⟩
        | assign u => cases hw
        | define u => cases hw
      rw [List.filter_cons_of_neg (by rw [hw]; exact Bool.false_ne_true)] at h
      rcases ih h with ⟨us, rfl⟩ | ⟨us, x, ts, hx, rfl⟩
      · exact .inl ⟨u :: us, rfl⟩
      · exact .inr ⟨u :: us, x, ts, hx, rfl⟩

/-- In front of an export with a name of its own, only what is inherited can have been copied. -/
theorem putAll_explicit_ok {us ts : List V} {w : Write V} (hw : w.isExplicit = true)
    {r : Option (Slot V)}
    (h : W.putAll key none (us.map .copy ++ w :: ts.map .copy) = .ok r) :
    (∀ u ∈ us, W.inherits key u = true) ∧
      W.putAll key none (w :: ts.map .copy) = .ok r := by
  rw [putAll_append] at h
  cases hus : W.putAll key none (us.map .copy) with
  | error e => rw [hus] at h; cases h
  | ok slot =>
    rw [hus] at h
    rcases (putAll_copies_ok hus).2 with ⟨rfl, hall⟩ | ⟨u, -, -, rfl⟩
    · exact ⟨hall, h⟩
    · have hput : W.put key (some (.getter u false)) w = .error .typeError := by
        cases w with
        | assign v => rfl
        | define v => rfl
        | copy v => cases hw
      have h : W.putAll key (some (.getter u false)) (w :: ts.map .copy) = .ok r := h
      rw [putAll_cons, hput] at h
      cases h

/-- An assignment to a key that is not there adds it. Assigning `__proto__` is something else. -/
theorem put_none_assign {ws : List (Write V)} (hproto : key = "__proto__" → ∀ v, Write.assign v ∉ ws)
    {v : V} (hv : .assign v ∈ ws) :
    W.put key none (.assign v) = .ok (some (.data v true true)) :=
  if_neg fun hkey ↦ hproto hkey v hv

theorem harmless_of_putAll {ws : List (Write V)} (hone : (ws.filter Write.isExplicit).length ≤ 1)
    (hproto : key = "__proto__" → ∀ v, Write.assign v ∉ ws) {s : Option (Slot V)}
    (hrun : W.putAll key none ws = .ok s)
    (hvalue : ∀ v, Write.assign v ∈ ws ∨ Write.define v ∈ ws → W.Has key s v) :
    Harmless W key ws := by
  rcases writes_cases hone with ⟨us, rfl⟩ | ⟨us, w, ts, hw, rfl⟩
  · exact .copies us (putAll_copies_ok hrun).1
  · -- So far the key is not there, and what is written now decides about all copies behind it.
    obtain ⟨hus, hrun⟩ := putAll_explicit_ok hw hrun
    rw [putAll_cons] at hrun
    cases w with
    | assign v =>
      have hhas := hvalue v (.inl (by simp))
      rw [put_none_assign hproto (by simp)] at hrun
      obtain ⟨s', hlast, hagrees⟩ := exists_putAll_configurable W key
        (s := .data v true true) rfl ts
      cases hlast.symm.trans hrun
      refine .value us v ts hus fun t ht ↦ ?_
      rw [has_some] at hhas
      rw [ht, Option.getD_some] at hagrees
      exact hhas.symm.trans hagrees
    | define v =>
      obtain ⟨-, hts⟩ := (putAll_fixed_iff (s := .getter v false) rfl).mp hrun
      exact .getter us v ts hus hts
    | copy v => cases hw

theorem exists_putAll_of_harmless {ws : List (Write V)} (h : Harmless W key ws)
    (hproto : key = "__proto__" → ∀ v, Write.assign v ∉ ws) :
    ∃ s, W.putAll key none ws = .ok s ∧
      ∀ v, Write.assign v ∈ ws ∨ Write.define v ∈ ws → W.Has key s v := by
  cases h with
  | copies us hus =>
    obtain ⟨r, hrun⟩ := exists_putAll_copies hus
    exact ⟨r, hrun, fun v hv ↦ by simp at hv⟩
  | getter us v ts hus hts =>
    refine ⟨some (.getter v false), ?_, fun u hu ↦ ?_⟩
    · rw [putAll_append, putAll_inherited hus]
      exact (putAll_fixed_iff (s := .getter v false) rfl).mpr ⟨rfl, hts⟩
    · have huv : u = v := by simpa using hu
      rw [huv, has_some]
      exact .inl rfl
  | value us v ts hus hts =>
    obtain ⟨s', hlast, hagrees⟩ := exists_putAll_configurable W key
      (s := .data v true true) rfl ts
    have hput : W.put key none (.assign v) = .ok (some (.data v true true)) :=
      put_none_assign hproto (by simp)
    refine ⟨some s', ?_, fun u hu ↦ ?_⟩
    · rw [putAll_append, putAll_inherited hus]
      exact (putAll_cons ..).trans ((congrArg (· >>= _) hput).trans hlast)
    · have huv : u = v := by simpa using hu
      rw [huv, has_some]
      cases hend : ts.getLast? with
      | none =>
        rw [hend] at hagrees
        exact hagrees
      | some t =>
        rw [hend] at hagrees
        exact hagrees.trans (hts t hend).symm

/-- A key that is not there is written without an error, and every export with a name of its own has
its value, exactly if the writes do no harm. -/
theorem harmless_iff {ws : List (Write V)} (hone : (ws.filter Write.isExplicit).length ≤ 1)
    (hproto : key = "__proto__" → ∀ v, Write.assign v ∉ ws) :
    (∃ s, W.putAll key none ws = .ok s ∧
        ∀ v, Write.assign v ∈ ws ∨ Write.define v ∈ ws → W.Has key s v)
      ↔ Harmless W key ws :=
  ⟨fun ⟨_, hrun, hvalue⟩ ↦ harmless_of_putAll hone hproto hrun hvalue,
    fun h ↦ exists_putAll_of_harmless h hproto⟩

/-- If all that is copied to a key equals one value, the key reads as that. -/
theorem has_of_copies {ws : List (Write V)} {v : V} {s : Option (Slot V)}
    (hws : ∀ w ∈ ws, w = .copy v) (hne : ws ≠ []) (hrun : W.putAll key none ws = .ok s) :
    W.Has key s v := by
  obtain ⟨us, rfl⟩ := exists_map_copy fun w hw ↦ by rw [hws w hw]; rfl
  have hus : ∀ u ∈ us, u = v := fun u hu ↦ Write.copy.inj (hws _ (List.mem_map_of_mem hu))
  rcases (putAll_copies_ok hrun).2 with ⟨rfl, hall⟩ | ⟨u, hu, -, rfl⟩
  · obtain ⟨u, hu⟩ := List.exists_mem_of_ne_nil us fun h ↦ hne (by rw [h]; rfl)
    rw [← hus u hu]
    exact W.has_none (hall u hu)
  · rw [has_some, ← hus u hu]
    exact .inl rfl

end World

end Downlevel.CommonJs
