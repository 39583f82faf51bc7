import Downlevel.Session
import Mathlib.Data.List.Nodup

/-!
# Shared toolchains over a session

The numbers of the shared toolchains are their identities. Along a session the list of the shared
toolchains only grows at its end, so a number once given stays the number of the same entry; no
version stands in the list twice, so the number and the version determine each other; and each
entry is the toolchain with the default configurations for its version, whatever the session has
done with copies of it.

Taking a shared toolchain is the only step that touches the list, and `SharedToolchains.get_cases`
says once what it can do. The invariant `SharedToolchains.Valid` and the growth of the list are
read off it, and carried over whole runs.
-/

namespace Downlevel

namespace SharedToolchains

variable {shared : SharedToolchains}

/-- The lists that a session can come to: no version stands twice, and each has the toolchain
with the default configurations. -/
structure Valid (shared : SharedToolchains) : Prop where
  nodup : (shared.instances.map Prod.fst).Nodup
  eq_ofVersion : ∀ e ∈ shared.instances, e.2 = Toolchain.ofVersion e.1

theorem Valid.empty : Valid empty := ⟨List.nodup_nil, by simp [SharedToolchains.empty]⟩

/-- A request finds the entry of its version, or adds one for a version that has none. -/
theorem get_cases (shared : SharedToolchains) (version : String) :
    (∃ i t, shared.instances[i]? = some (version, t) ∧ shared.get version = (i, t, shared)) ∨
      version ∉ shared.instances.map Prod.fst ∧
        shared.get version =
          (shared.instances.length, .ofVersion version,
            ⟨shared.instances ++ [(version, .ofVersion version)]⟩) := by
  cases h : shared.instances.lookup version with
  | none =>
    refine .inr ⟨?_, by simp [get, h]⟩
    rintro hmem
    obtain ⟨e, he, rfl⟩ := List.mem_map.1 hmem
    exact absurd (List.lookup_eq_none_iff.1 h e he) (by simp)
  | some t =>
    obtain ⟨front, back, heq, hfront⟩ := List.lookup_eq_some_iff.1 h
    have hn : shared.number? version = some front.length := by
      rw [number?, heq, List.findIdx?_append, List.findIdx?_eq_none_iff.2]
      · simp [List.findIdx?_cons]
      · intro e he
        have hne := hfront e he
        rw [bne_iff_ne] at hne
        exact beq_false_of_ne hne.symm
    exact .inl ⟨front.length, t, by simp [heq], by simp [get, h, hn]⟩

/-- A request keeps the list valid. -/
theorem Valid.get (h : shared.Valid) (version : String) : (shared.get version).2.2.Valid := by
  obtain ⟨i, t, -, hget⟩ | ⟨hnew, hget⟩ := get_cases shared version
  · rwa [hget]
  · rw [hget]
    constructor
    · rw [List.map_append, List.map_singleton, ← List.concat_eq_append]
      exact h.nodup.concat hnew
    · simpa [or_imp, forall_and] using h.eq_ofVersion

/-- A request leaves the entries that are there in their places. -/
theorem isPrefix_get (shared : SharedToolchains) (version : String) :
    shared.instances <+: (shared.get version).2.2.instances := by
  obtain ⟨i, t, -, hget⟩ | ⟨-, hget⟩ := get_cases shared version
  · have hsame : (shared.get version).2.2 = shared := congrArg (·.2.2) hget
    exact ⟨[], by rw [List.append_nil, hsame]⟩
  · rw [hget]
    exact List.prefix_append ..

/-- A request gives the default toolchain of its version, and the number under which that
toolchain then stands. -/
theorem Valid.get_spec (h : shared.Valid) (version : String) :
    (shared.get version).2.1 = .ofVersion version ∧
      (shared.get version).2.2.instances[(shared.get version).1]? =
        some (version, .ofVersion version) := by
  obtain ⟨i, t, hi, hget⟩ | ⟨-, hget⟩ := get_cases shared version
  · obtain rfl : t = .ofVersion version := h.eq_ofVersion _ (List.mem_of_getElem? hi)
    rw [hget]
    exact ⟨rfl, hi⟩
  · rw [hget]
    exact ⟨rfl, by simp⟩

/-- In a valid list the number and the version determine each other. -/
theorem Valid.number_iff (h : shared.Valid) {i j : Nat} {v w : String} {t u : Toolchain}
    (hi : shared.instances[i]? = some (v, t)) (hj : shared.instances[j]? = some (w, u)) :
    i = j ↔ v = w := by
  have hv : (shared.instances.map Prod.fst)[i]? = some v := by simp [hi]
  have hw : (shared.instances.map Prod.fst)[j]? = some w := by simp [hj]
  constructor
  · rintro rfl
    exact Option.some.inj (hv.symm.trans hw)
  · rintro rfl
    exact (List.getElem?_inj (List.getElem?_eq_some_iff.1 hv).1 h.nodup).1 (hv.trans hw.symm)

end SharedToolchains

namespace Session

variable {s : Session}

/-! ### One step -/

/-- No step makes the list of the shared toolchains invalid. -/
theorem valid_next (h : s.shared.Valid) (step : Step) : (s.next step).shared.Valid := by
  cases step with
  | change c =>
    cases c with
    | share version => exact h.get version
    | renew t => exact h
    | configure modules typed => exact h
  | run isScopedStyle compile source path => exact h
  | key environment sourceText sourcePath args => exact h

/-- No step moves or alters a shared toolchain. -/
theorem isPrefix_next (s : Session) (step : Step) :
    s.shared.instances <+: (s.next step).shared.instances := by
  cases step with
  | change c =>
    cases c with
    | share version => exact SharedToolchains.isPrefix_get s.shared version
    | renew t => exact List.prefix_rfl
    | configure modules typed => exact List.prefix_rfl
  | run isScopedStyle compile source path => exact List.prefix_rfl
  | key environment sourceText sourcePath args => exact List.prefix_rfl

/-! ### A whole run -/

@[simp] theorem after_nil (s : Session) : s.after [] = s := rfl

@[simp] theorem after_cons (s : Session) (step : Step) (steps : List Step) :
    s.after (step :: steps) = (s.next step).after steps := rfl

theorem after_append (s : Session) (before later : List Step) :
    s.after (before ++ later) = (s.after before).after later := List.foldl_append

theorem valid_after (h : s.shared.Valid) (steps : List Step) :
    (s.after steps).shared.Valid := by
  induction steps generalizing s with
  | nil => exact h
  | cons step steps ih => exact ih (valid_next h step)

theorem isPrefix_after (s : Session) (steps : List Step) :
    s.shared.instances <+: (s.after steps).shared.instances := by
  induction steps generalizing s with
  | nil => exact List.prefix_rfl
  | cons step steps ih => exact (isPrefix_next s step).trans (ih (s.next step))

/-- What a step of a run gives back is what it gives in the session that the steps before it have
led to. -/
theorem getElem?_answers (s : Session) (steps : List Step) (n : Nat) :
    (s.answers steps)[n]? = steps[n]?.map (s.after (steps.take n)).answer := by
  induction steps generalizing s n with
  | nil => simp [answers]
  | cons step steps ih =>
    cases n with
    | zero => simp [answers]
    | succ n => simpa [answers] using ih (s.next step) n

/-- A request for a shared toolchain in the course of a run is answered by the default toolchain
of its version, which from then on stands under the number given. -/
theorem answer_share (h : s.shared.Valid) {steps : List Step} {n : Nat} {version : String}
    (hn : steps[n]? = some (.change (.share version))) :
    ∃ i, (s.answers steps)[n]? = some (.shared i (.ofVersion version)) ∧
      ∀ m, n < m → (s.after (steps.take m)).shared.instances[i]? =
        some (version, .ofVersion version) := by
  have hv := valid_after h (steps.take n)
  generalize hs : s.after (steps.take n) = s' at hv
  obtain ⟨ht, hi⟩ := hv.get_spec version
  refine ⟨(s'.shared.get version).1, ?_, ?_⟩
  · rw [getElem?_answers, hn, hs, ← ht]
    rfl
  · intro m hm
    -- The first `m` steps are the `n` before the request, the request, and what follows it.
    obtain ⟨later, hlater⟩ : ∃ later,
        steps.take m = steps.take n ++ .change (.share version) :: later := by
      obtain ⟨d, rfl⟩ := Nat.exists_eq_add_of_lt hm
      obtain ⟨hlt, hget⟩ := List.getElem?_eq_some_iff.1 hn
      refine ⟨(steps.drop (n + 1)).take d, ?_⟩
      rw [show n + d + 1 = n + (d + 1) by omega, List.take_add, List.drop_eq_getElem_cons hlt,
        List.take_succ_cons, hget]
    rw [hlater, after_append, hs, after_cons]
    obtain ⟨added, hadded⟩ := isPrefix_after (s'.next (.change (.share version))) later
    rw [← hadded]
    exact List.getElem?_append_left (List.getElem?_eq_some_iff.1 hi).1 ▸ hi

/-! ### Any two requests -/

/-- Along any run that starts without a shared toolchain, every request for one is answered. Two
requests are answered by the same instance exactly when they name the same version. Each answer
has the version that was asked for and the default configurations, and the entry under its number
is this very toolchain in every later session of the run. -/
theorem share_same_iff (current : Toolchain) (steps : List Step) (j k : Nat) (v w : String)
    (hj : steps[j]? = some (.change (.share v))) (hk : steps[k]? = some (.change (.share w))) :
    ∃ i i' t t',
      (answers ⟨.empty, current⟩ steps)[j]? = some (.shared i t) ∧
      (answers ⟨.empty, current⟩ steps)[k]? = some (.shared i' t') ∧
      (i = i' ↔ v = w) ∧
      (t.compilerVersion = v ∧ t.typed = default ∧ t.modules = default) ∧
      (t'.compilerVersion = w ∧ t'.typed = default ∧ t'.modules = default) ∧
      (∀ m, j < m →
        (after ⟨.empty, current⟩ (steps.take m)).shared.instances[i]? = some (v, t)) ∧
      ∀ m, k < m →
        (after ⟨.empty, current⟩ (steps.take m)).shared.instances[i']? = some (w, t') := by
  have hvalid : SharedToolchains.Valid (Session.mk .empty current).shared := .empty
  obtain ⟨i, hi, hkept⟩ := answer_share hvalid hj
  obtain ⟨i', hi', hkept'⟩ := answer_share hvalid hk
  have hboth : i = i' ↔ v = w :=
    (valid_after hvalid (steps.take (max j k + 1))).number_iff
      (hkept _ (by omega)) (hkept' _ (by omega))
  exact ⟨i, i', _, _, hi, hi', hboth, ⟨rfl, rfl, rfl⟩, ⟨rfl, rfl, rfl⟩, hkept, hkept'⟩

/-- A run that asks for two versions and for the first one again, and in between reconfigures a
copy of it, uses the copy and takes a new toolchain. -/
def mixedSteps : List Step :=
  [.change (.share "2.45.3"), .change (.configure (some ⟨.off, [], []⟩) none),
    .run (fun _ ↦ false) (fun request ↦ .ok request.source) "export default 1;" "c/foo/foo.js",
    .key none "export default 1;" "c/foo/foo.js" (.options "v1" .null),
    .change (.share "2.46.0"), .change (.renew (.ofVersion "2.46.0")),
    .change (.share "2.45.3")]

/-- The first and the last request of `mixedSteps` are answered by one instance, the one for the
other version by a different one. -/
theorem share_mixedSteps :
    ∃ i i' t t', (start.answers mixedSteps)[0]? = some (.shared i t) ∧
      (start.answers mixedSteps)[6]? = some (.shared i t) ∧
      (start.answers mixedSteps)[4]? = some (.shared i' t') ∧ i ≠ i' := by
  obtain ⟨i, i₆, t, t₆, h, h₆, hsame, -, -, hkept, hkept₆⟩ :=
    share_same_iff default mixedSteps 0 6 "2.45.3" "2.45.3" rfl rfl
  obtain ⟨i₀, i', t₀, t', h₀, h', hdiffer, -⟩ :=
    share_same_iff default mixedSteps 0 4 "2.45.3" "2.46.0" rfl rfl
  obtain rfl : i = i₆ := hsame.2 rfl
  obtain rfl : t = t₆ := by
    simpa using (hkept 7 (by decide)).symm.trans (hkept₆ 7 (by decide))
  obtain ⟨rfl, rfl⟩ : i = i₀ ∧ t = t₀ := by simpa using h.symm.trans h₀
  exact ⟨i, i', t, t', h, h₆, h', hdiffer.not.2 (by decide)⟩

end Session

end Downlevel
