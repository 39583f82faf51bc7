import Downlevel.Proofs.CacheKey.Layout
import Downlevel.Toolchain

/-!
# When results may be kept under their keys

A result that is kept under a key may be handed out for every request with that key. The digested
bytes give back the text and the path of a file and the version of the compiler, and for one
toolchain the result depends on nothing else. What they do not show are the two configurations of a
toolchain. So keys are sound between two toolchains of one version exactly if these remove types
alike and convert alike whatever the compiler makes of a file.
-/

namespace Downlevel

/-! ## Requests -/

/-- A request for the result for a file, with what else goes into its key. -/
structure Request where
  environment : Option String
  source : String
  path : String
  arguments : KeyArguments

/-- No zero character stands where there can be none. -/
structure Request.HasPlainNames (r : Request) : Prop where
  path : '\x00' ∉ r.path.toList
  environment : ∀ name ∈ r.environment, '\x00' ∉ name.toList

namespace Toolchain

/-- What the key for a request depends on. -/
def keyFields (t : Toolchain) (r : Request) : KeyFields :=
  ⟨r.source, r.path, r.arguments.configText, environmentName r.environment, t.compilerVersion⟩

theorem cacheKey_eq (t : Toolchain) (r : Request) :
    t.cacheKey r.environment r.source r.path r.arguments = (t.keyFields r).key := rfl

theorem keyFields_hasPlainNames {t : Toolchain} {r : Request} (hr : r.HasPlainNames)
    (hversion : '\x00' ∉ t.compilerVersion.toList) : (t.keyFields r).HasPlainNames where
  path := hr.path
  environment := by
    have hnone : '\x00' ∉ "undefined".toList := by decide
    cases hname : r.environment with
    | none =>
      rw [keyFields, hname]
      exact hnone
    | some name =>
      rw [keyFields, hname]
      exact hr.environment name hname
  version := hversion

/-! ## Results -/

variable {t u : Toolchain} {isScopedStyle : String → Bool}
  {compile : CompileRequest → Except String ScriptUnit} {source path : String}

theorem run_of_error {e : Failure} (h : t.compilerSource source path = .error e) :
    t.run isScopedStyle compile source path = .error e := by
  rw [run, compileRequest, h]
  rfl

theorem run_of_ok {plain : ScriptUnit} (h : t.compilerSource source path = .ok plain) :
    t.run isScopedStyle compile source path
      = t.convert path (compile ⟨plain, path, .ofPath isScopedStyle path⟩) := by
  rw [run, compileRequest, h]
  rfl

/-- Two toolchains do the same to a file: they give the compiler the same text, and they convert
alike whatever it makes of that. -/
structure WorkAlike (t u : Toolchain) (source path : String) : Prop where
  compilerSource : t.compilerSource source path = u.compilerSource source path
  convert : ∀ plain, t.compilerSource source path = .ok plain →
    ∀ unit, t.convert path (.ok unit) = u.convert path (.ok unit)

/-- A compiler that fails shows whether it was asked at all. -/
theorem not_failing_alike {cause : Failure} {plain : ScriptUnit}
    (hcause : t.compilerSource source path = .error cause)
    (hplain : u.compilerSource source path = .ok plain) :
    ¬∀ message : String, t.run (fun _ ↦ false) (fun _ ↦ .error message) source path
      = u.run (fun _ ↦ false) (fun _ ↦ .error message) source path := by
  intro hrun
  have hcompiler : ∀ message : String, cause = .compiler message := by
    intro message
    have hmessage := hrun message
    rw [run_of_error hcause, run_of_ok hplain] at hmessage
    exact Except.error.inj hmessage
  have hsame := (hcompiler "").symm.trans (hcompiler "x")
  exact absurd (Failure.compiler.inj hsame) (by decide)

/-- Two toolchains do the same to a file exactly if no compiler tells them apart. -/
theorem workAlike_iff : WorkAlike t u source path ↔
    ∀ isScopedStyle compile, t.run isScopedStyle compile source path
      = u.run isScopedStyle compile source path := by
  constructor
  · rintro ⟨hsource, hconvert⟩ isScopedStyle compile
    cases hplain : t.compilerSource source path with
    | error e => rw [run_of_error hplain, run_of_error (hsource ▸ hplain)]
    | ok plain =>
      rw [run_of_ok hplain, run_of_ok (hsource ▸ hplain)]
      cases compile ⟨plain, path, .ofPath isScopedStyle path⟩ with
      | error message => rfl
      | ok unit => exact hconvert plain hplain unit
  · intro hrun
    have hsource : t.compilerSource source path = u.compilerSource source path := by
      cases ht : t.compilerSource source path with
      | error e =>
        cases hu : u.compilerSource source path with
        | error e' =>
          -- Neither reaches the compiler, so any compiler shows the two failures.
          have hboth := hrun (fun _ ↦ false) fun _ ↦ .error ""
          rwa [run_of_error ht, run_of_error hu] at hboth
        | ok plain => exact absurd (fun _ ↦ hrun _ _) (not_failing_alike ht hu)
      | ok plain =>
        cases hu : u.compilerSource source path with
        | error e => exact absurd (fun _ ↦ (hrun _ _).symm) (not_failing_alike hu ht)
        | ok plain' =>
          -- This compiler fails with one message for the text of `t`, and another one for others.
          have hboth := hrun (fun _ ↦ false) fun r ↦
            .error (if r.source = plain then "same" else "other")
          rw [run_of_ok ht, run_of_ok hu, if_pos rfl] at hboth
          by_cases hplain : plain' = plain
          · rw [hplain]
          · rw [if_neg hplain] at hboth
            exact absurd (Failure.compiler.inj (Except.error.inj hboth)) (by decide)
    refine ⟨hsource, fun plain hplain unit ↦ ?_⟩
    have hunit := hrun (fun _ ↦ false) fun _ ↦ .ok unit
    rwa [run_of_ok hplain, run_of_ok (hsource ▸ hplain)] at hunit

/-! ## Soundness of keys -/

/-- Requests to two toolchains whose keys are digests of the same bytes have the same result. -/
def KeysSound (t u : Toolchain) : Prop :=
  ∀ r s : Request, r.HasPlainNames → s.HasPlainNames → (t.keyFields r).bytes = (u.keyFields s).bytes →
    ∀ isScopedStyle compile, t.run isScopedStyle compile r.source r.path
      = u.run isScopedStyle compile s.source s.path

/-- Keys are sound between two toolchains of one version exactly if the toolchains do the same to
every file. -/
theorem keysSound_iff (ht : '\x00' ∉ t.compilerVersion.toList)
    (hu : '\x00' ∉ u.compilerVersion.toList) :
    KeysSound t u ↔ (t.compilerVersion = u.compilerVersion →
      ∀ source path : String, '\x00' ∉ path.toList → WorkAlike t u source path) := by
  constructor
  · intro hsound hversion source path hpath
    let r : Request := ⟨none, source, path, .options "" .null⟩
    have hr : r.HasPlainNames := ⟨hpath, nofun⟩
    have hbytes : (t.keyFields r).bytes = (u.keyFields r).bytes := by
      rw [keyFields, keyFields, hversion]
    exact workAlike_iff.mpr (hsound r r hr hr hbytes)
  · intro halike r s hr hs hbytes isScopedStyle compile
    have hfields := KeyFields.eq_of_bytes_eq (keyFields_hasPlainNames hr ht)
      (keyFields_hasPlainNames hs hu) hbytes
    simp only [keyFields, KeyFields.mk.injEq] at hfields
    obtain ⟨hsource, hpath, -, -, hversion⟩ := hfields
    rw [← hsource, ← hpath]
    exact workAlike_iff.mp (halike hversion r.source r.path hr.path) isScopedStyle compile

/-- Two toolchains of one version that treat source maps differently share the keys of different
results. -/
theorem not_keysSound_of_mapPolicy :
    let t : Toolchain := ⟨default, ⟨.both, [.jest], [.modulesCommonJs]⟩, "2.45.3"⟩
    let u : Toolchain := ⟨default, ⟨.off, [.jest], [.modulesCommonJs]⟩, "2.45.3"⟩
    '\x00' ∉ t.compilerVersion.toList ∧ '\x00' ∉ u.compilerVersion.toList ∧ ¬KeysSound t u := by
  intro t u
  have hversion : '\x00' ∉ "2.45.3".toList := by decide
  refine ⟨hversion, hversion, fun hsound ↦ ?_⟩
  have halike := (keysSound_iff hversion hversion).mp hsound rfl "" "a.js" (by decide)
  have hresults := halike.convert ⟨"", none⟩ (by decide +kernel) ⟨"", none⟩
  have hmaps := congrArg (fun result ↦ result.toOption.bind ScriptUnit.map) hresults
  have hdiffer : ((t.convert "a.js" (.ok ⟨"", none⟩)).toOption.bind ScriptUnit.map).isSome
      ≠ ((u.convert "a.js" (.ok ⟨"", none⟩)).toOption.bind ScriptUnit.map).isSome := by
    decide +kernel
  exact hdiffer (congrArg Option.isSome hmaps)

end Toolchain

end Downlevel
