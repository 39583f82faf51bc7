import Downlevel.Proofs.CommonJs.DynamicImports
import Downlevel.Proofs.CommonJs.Footer

/-!
# Generated names

Names are generated while the statements of a script are converted: a helper when it is first asked
for, and one reference for each module that a statement of the header refers to. Every generated
name is looked for among the names that are not in use, and is in use from then on. So the invariant
of the run is about the names in use: they hold all names of the script and all generated ones, and
a name that is not in use differs from both.
-/

namespace Downlevel.CommonJs

open Script

variable {features : Features} {source : List Char} {m : Module} {n : Node} {d d' : Draft}

/-! ## Names that can be generated -/

/-- What every generated name looks like: a name of ASCII characters that begins with an
underscore. -/
def LooksGenerated (name : String) : Prop :=
  Text.isAsciiName name = true ∧ name.toList.head? = some '_'

theorem looksGenerated_of_toList {name : String} {cs : List Char} (h : name.toList = '_' :: cs)
    (hcs : ∀ c ∈ cs, Text.isAsciiNamePart c = true) : LooksGenerated name := by
  refine ⟨?_, by rw [h, List.head?_cons]⟩
  rw [Text.isAsciiName, h]
  exact List.all_eq_true.mpr hcs

theorem isAsciiNamePart_of_isDigit {c : Char} (h : c.isDigit = true) :
    Text.isAsciiNamePart c = true := by
  rw [Text.isAsciiNamePart, h, Bool.or_true]

/-- Digits at the end of a base do not change what it looks like. -/
theorem LooksGenerated.unusedName {base : String} (h : LooksGenerated base) (used : List String) :
    LooksGenerated (unusedName used base) := by
  obtain ⟨digits, hname, hdigits⟩ := toList_unusedName used base
  obtain ⟨hascii, hhead⟩ := h
  cases hbase : base.toList with
  | nil => rw [hbase] at hhead; cases hhead
  | cons c cs =>
    rw [hbase, List.head?_cons, Option.some_inj] at hhead
    subst hhead
    rw [Text.isAsciiName, hbase] at hascii
    rw [hbase, List.cons_append] at hname
    refine looksGenerated_of_toList hname fun c hc ↦ ?_
    rcases List.mem_append.mp hc with hc | hc
    · exact List.all_eq_true.mp hascii c hc
    · exact isAsciiNamePart_of_isDigit (hdigits c hc)

theorem looksGenerated_defaultHelper : LooksGenerated "_interopRequireDefault" := by
  unfold LooksGenerated
  decide

theorem looksGenerated_wholeHelper : LooksGenerated "_interopRequireWildcard" := by
  unfold LooksGenerated
  decide

/-- Whatever a module is called, what its reference is named after has nothing but characters of
ASCII names. -/
theorem looksGenerated_stem (specifier : String) :
    LooksGenerated ("_" ++ Names.stem specifier) := by
  have hname : ("_" ++ Names.stem specifier).toList = '_' :: (Names.stem specifier).toList :=
    String.toList_append ..
  refine looksGenerated_of_toList hname fun c hc ↦ ?_
  rw [Names.stem, String.toList_ofList] at hc
  exact (List.mem_filter.mp hc).2

/-! ## Names in use -/

/-- The generated names, if the references to modules have the given ones. -/
def Names.generated (names : Names) (references : List String) : List String :=
  names.defaultHelper.toList ++ names.wholeHelper.toList ++ references

/-- Generated names are in use and differ from each other and from the names of a script. -/
structure Names.Fresh (script references : List String) (names : Names) : Prop where
  script_used : script ⊆ names.used
  generated_used : names.generated references ⊆ names.used
  nodup : (names.generated references).Nodup
  notMem_script : ∀ name ∈ names.generated references, name ∉ script
  looksGenerated : ∀ name ∈ names.generated references, LooksGenerated name

namespace Names.Fresh

variable {script references : List String} {names : Names}

theorem ofScript (m : Module) : Names.Fresh (namesIn m.items) [] (Names.ofScript m) where
  script_used := List.Subset.refl _
  generated_used := List.nil_subset _
  nodup := List.nodup_nil
  notMem_script := nofun
  looksGenerated := nofun

/-- A name that was not in use becomes a generated one. -/
theorem insert (h : names.Fresh script references) {name : String} (hname : name ∉ names.used)
    (hlooks : LooksGenerated name) {names' : Names} {references' : List String}
    (hused : names'.used = name :: names.used)
    (hperm : (names'.generated references').Perm (name :: names.generated references)) :
    names'.Fresh script references' := by
  have hmem : ∀ {r}, r ∈ names'.generated references' →
      r = name ∨ r ∈ names.generated references :=
    fun hr ↦ List.mem_cons.mp (hperm.mem_iff.mp hr)
  refine ⟨?_, fun r hr ↦ ?_, ?_, fun r hr ↦ ?_, fun r hr ↦ ?_⟩
  · rw [hused]
    exact List.Subset.trans h.script_used (List.subset_cons_self ..)
  · rw [hused]
    rcases hmem hr with rfl | hr
    · exact List.mem_cons_self
    · exact List.mem_cons_of_mem _ (h.generated_used hr)
  · rw [hperm.nodup_iff, List.nodup_cons]
    exact ⟨fun hr ↦ hname (h.generated_used hr), h.nodup⟩
  · rcases hmem hr with rfl | hr
    · exact fun hs ↦ hname (h.script_used hs)
    · exact h.notMem_script r hr
  · rcases hmem hr with rfl | hr
    · exact hlooks
    · exact h.looksGenerated r hr

theorem forDefault (h : names.Fresh script references) :
    names.forDefault.2.Fresh script references := by
  unfold Names.forDefault
  split
  · exact h
  · next hnone =>
    refine h.insert (unusedName_notMem names.used _)
      (looksGenerated_defaultHelper.unusedName names.used) rfl ?_
    rw [Names.generated, Names.generated, hnone]
    exact List.Perm.refl _

theorem forWhole (h : names.Fresh script references) :
    names.forWhole.2.Fresh script references := by
  unfold Names.forWhole
  split
  · exact h
  · next hnone =>
    refine h.insert (unusedName_notMem names.used _)
      (looksGenerated_wholeHelper.unusedName names.used) rfl ?_
    rw [Names.generated, Names.generated, hnone, List.append_assoc, Option.toList_none,
      List.append_nil]
    exact List.perm_middle

theorem forModule (h : names.Fresh script references) (specifier : String) :
    (names.forModule specifier).2.Fresh script
      (references ++ [(names.forModule specifier).1]) := by
  refine h.insert (unusedName_notMem names.used _)
    ((looksGenerated_stem specifier).unusedName names.used) rfl ?_
  have happend : (names.forModule specifier).2.generated
      (references ++ [(names.forModule specifier).1])
        = names.generated references ++ [(names.forModule specifier).1] :=
    (List.append_assoc ..).symm
  rw [happend]
  exact List.perm_append_singleton _ _

end Names.Fresh

/-! ## Helpers keep their names -/

theorem forDefault_eq (names : Names) :
    names.forDefault.2.defaultHelper = some names.forDefault.1 ∧
      names.forDefault.2.wholeHelper = names.wholeHelper ∧
      ∀ helper, names.defaultHelper = some helper → names.forDefault = (helper, names) := by
  unfold Names.forDefault
  split
  · next helper hhelper =>
    refine ⟨hhelper, rfl, fun helper' hhelper' ↦ ?_⟩
    rw [hhelper, Option.some_inj] at hhelper'
    rw [hhelper']
  · next hnone => exact ⟨rfl, rfl, fun helper hhelper ↦ by rw [hnone] at hhelper; cases hhelper⟩

theorem forWhole_eq (names : Names) :
    names.forWhole.2.wholeHelper = some names.forWhole.1 ∧
      names.forWhole.2.defaultHelper = names.defaultHelper ∧
      ∀ helper, names.wholeHelper = some helper → names.forWhole = (helper, names) := by
  unfold Names.forWhole
  split
  · next helper hhelper =>
    refine ⟨hhelper, rfl, fun helper' hhelper' ↦ ?_⟩
    rw [hhelper, Option.some_inj] at hhelper'
    rw [hhelper']
  · next hnone => exact ⟨rfl, rfl, fun helper hhelper ↦ by rw [hnone] at hhelper; cases hhelper⟩

/-! ## What one statement generates -/

/-- Whether an import has to refer to its module: it binds something else than exports with names
of their own, and more than the default export. -/
def bindsMixed : List RuntimeImport → Bool
  | [.default _] => false
  | bs => bs.any fun b ↦ (plainField? b).isNone

/-- The module that a statement needs a reference to. -/
def referencedModule? (features : Features) : Node → Option String
  | .item _ _ (.importDeclaration i) =>
    if !i.isType && (ScopedImport.owner? features.guarded i.source.value).isNone
        && features.modules && bindsMixed i.bindings then some i.source.value
    else none
  | .item _ _ (.exportList l) =>
    if features.modules && !l.isType then l.source.map StringLiteral.value else none
  | .item _ _ (.exportAll a) =>
    if features.modules && !a.isType then some a.source.value else none
  | _ => none

namespace Draft

/-- All that a statement can do to the names and to the statements of the header. -/
inductive Generates (d d' : Draft) : Option String → Prop where
  /-- Nothing. -/
  | nothing (hnames : d'.names = d.names) (himports : d'.imports = d.imports) :
    Generates d d' none
  /-- It adds a statement that uses no generated name. -/
  | plain (s : ImportStatement) (hplain : ∀ h specifier n, s ≠ .defaultOnly h specifier n)
      (hunbound : ∀ h specifier n bs, s ≠ .reference h specifier n bs)
      (hnames : d'.names = d.names) (himports : d'.imports = d.imports ++ [s]) :
    Generates d d' none
  /-- It adds a call of the helper for default exports. -/
  | defaultOnly (specifier localName : String) (hnames : d'.names = d.names.forDefault.2)
      (himports : d'.imports
        = d.imports ++ [.defaultOnly d.names.forDefault.1 specifier localName]) :
    Generates d d' none
  /-- It adds a reference to a module. -/
  | reference (specifier : String) (bs : List RuntimeImport)
      (hnames : d'.names = (d.names.forWhole.2.forModule specifier).2)
      (himports : d'.imports
        = d.imports ++ [.reference d.names.forWhole.1 specifier
            (d.names.forWhole.2.forModule specifier).1 bs]) :
    Generates d d' (some specifier)

theorem isNone_mapM {α β : Type} (f : α → Option β) (as : List α) :
    (as.mapM f).isNone = as.any fun a ↦ (f a).isNone := by
  induction as with
  | nil => rfl
  | cons a as ih =>
    rw [List.mapM_cons, List.any_cons, ← ih]
    cases f a with
    | none => rfl
    | some b => cases as.mapM f <;> rfl

theorem bindsMixed_eq {bs : List RuntimeImport} (hsingle : ∀ n, bs ≠ [.default n]) :
    bindsMixed bs = (bs.mapM plainField?).isNone := by
  rw [isNone_mapM]
  unfold bindsMixed
  split
  · exact absurd rfl (hsingle _)
  · rfl

theorem generates_replaces {names : Names} {s : ImportStatement} {specifier : String}
    {bs : List RuntimeImport} (h : Replaces d.names specifier bs s names) :
    Generates d ({ d with names }.addImport s) (if bindsMixed bs then some specifier else none) := by
  cases h with
  | effect hbindings =>
    rw [hbindings]
    exact .plain (.effect specifier) nofun nofun rfl rfl
  | fields hfields =>
    have hmixed : bindsMixed bs = false := by
      rw [bindsMixed_eq, hfields]
      · rfl
      · rintro n rfl
        cases hfields
    rw [hmixed, if_neg Bool.false_ne_true]
    exact .plain (.fields specifier _) nofun nofun rfl rfl
  | defaultOnly hbindings =>
    rw [hbindings]
    exact .defaultOnly specifier _ rfl rfl
  | reference hsingle hfields =>
    rw [bindsMixed_eq hsingle, hfields]
    exact .reference specifier bs rfl rfl

/-- What is cut out of the body has no part in it. -/
theorem Generates.cut {found : Option String} (h : Generates d d' found) (span : Span) :
    Generates d (d'.cut source span) found := by
  cases h with
  | nothing hnames himports => exact .nothing hnames himports
  | plain s hplain hunbound hnames himports => exact .plain s hplain hunbound hnames himports
  | defaultOnly specifier n hnames himports => exact .defaultOnly specifier n hnames himports
  | reference specifier bs hnames himports => exact .reference specifier bs hnames himports

/-- One statement. -/
theorem generates_convert {promises : List Edit}
    (h : d.convert features source promises n = .ok d') :
    Generates d d' (referencedModule? features n) := by
  have hnothing : referencedModule? features n = none → d'.names = d.names →
      d'.imports = d.imports → Generates d d' (referencedModule? features n) :=
    fun hnone hnames himports ↦ by rw [hnone]; exact .nothing hnames himports
  cases step_of_convert h with
  | left hleft =>
    refine hnothing ?_ rfl rfl
    unfold isLeft at hleft
    unfold referencedModule?
    grind
  | @importedTypes _ _ i htypes =>
    refine hnothing ?_ rfl rfl
    rcases htypes with htype | ⟨-, -, htypes⟩
    · rw [referencedModule?, htype]
      rfl
    · -- Without a binding there is nothing to refer to.
      rw [namesOnlyTypes, Bool.and_eq_true] at htypes
      have hmixed : bindsMixed i.bindings = false := by rw [List.isEmpty_iff.mp htypes.2]; rfl
      rw [referencedModule?, hmixed, Bool.and_false]
      rfl
  | guardedImport _ howner =>
    rw [referencedModule?, howner, Option.isNone_some, Bool.and_false]
    refine .plain (.guarded _) ?_ ?_ rfl rfl
    · rintro _ _ _ ⟨⟩
    · rintro _ _ _ _ ⟨⟩
  | replacedImport htype howner hmodules _ hs =>
    rw [referencedModule?, htype, howner, hmodules]
    exact (generates_replaces hs).cut _
  | listOfTypes _ htype =>
    exact hnothing (by rw [referencedModule?, htype, Bool.not_true, Bool.and_false]; rfl) rfl rfl
  | listFrom hmodules htype hsource =>
    rw [referencedModule?, hmodules, htype, hsource]
    exact .reference _ [] rfl rfl
  | list hmodules htype hsource =>
    exact hnothing (by rw [referencedModule?, hmodules, htype, hsource]; rfl) rfl rfl
  | allTypes _ htype =>
    exact hnothing (by rw [referencedModule?, htype, Bool.not_true, Bool.and_false]; rfl) rfl rfl
  | wholeModule hmodules htype =>
    rw [referencedModule?, hmodules, htype]
    exact .reference _ [] rfl rfl
  | everything hmodules htype =>
    rw [referencedModule?, hmodules, htype]
    exact .reference _ [] rfl rfl
  | _ => exact hnothing rfl rfl rfl

end Draft

/-! ## The run of the conversion -/

/-- The generated names of a draft. -/
def generatedNames (d : Draft) : List String :=
  d.names.generated ((boundModules d.imports).map Prod.fst)

/-- The generated names are fresh for a script, there is a reference for each of the given modules,
and the statements of the header call the helpers by their names. -/
structure NamesApart (script modules : List String) (d : Draft) : Prop where
  fresh : d.names.Fresh script ((boundModules d.imports).map Prod.fst)
  referenced : (boundModules d.imports).map Prod.snd = modules
  defaultHelper : ∀ {helper specifier n}, .defaultOnly helper specifier n ∈ d.imports →
    d.names.defaultHelper = some helper
  wholeHelper : ∀ {helper specifier name bs}, .reference helper specifier name bs ∈ d.imports →
    d.names.wholeHelper = some helper

namespace NamesApart

variable {script modules : List String}

/-- A statement of the header that calls the helpers by their names. -/
theorem append_import (h : NamesApart script modules d) {s : ImportStatement}
    {referenced : List String} (hreferenced : (boundModules [s]).map Prod.snd = referenced)
    (himports : d'.imports = d.imports ++ [s])
    (hfresh : d'.names.Fresh script ((boundModules (d.imports ++ [s])).map Prod.fst))
    (hkeeps : d.names.KeepsHelpers d'.names)
    (hdefault : ∀ {helper specifier n}, s = .defaultOnly helper specifier n →
      d'.names.defaultHelper = some helper)
    (hwhole : ∀ {helper specifier name bs}, s = .reference helper specifier name bs →
      d'.names.wholeHelper = some helper) :
    NamesApart script (modules ++ referenced) d' := by
  have hmem : ∀ {t}, t ∈ d'.imports → t ∈ d.imports ∨ s = t := fun ht ↦ by
    rw [himports, List.mem_append, List.mem_singleton] at ht
    exact ht.imp_right Eq.symm
  refine ⟨by rwa [himports], ?_, fun ht ↦ ?_, fun ht ↦ ?_⟩
  · rw [himports, boundModules_append, List.map_append, h.referenced, hreferenced]
  · exact (hmem ht).elim (fun ht ↦ hkeeps.defaultHelper (h.defaultHelper ht)) hdefault
  · exact (hmem ht).elim (fun ht ↦ hkeeps.wholeHelper (h.wholeHelper ht)) hwhole

theorem generates (h : NamesApart script modules d) {found : Option String}
    (hd : d.Generates d' found) : NamesApart script (modules ++ found.toList) d' := by
  cases hd with
  | nothing hnames himports =>
    rw [Option.toList_none, List.append_nil]
    exact ⟨by rw [hnames, himports]; exact h.fresh, by rw [himports]; exact h.referenced,
      by rw [hnames, himports]; exact h.defaultHelper, by rw [hnames, himports]; exact h.wholeHelper⟩
  | plain s hplain hunbound hnames himports =>
    have hbound : boundModules [s] = [] := by
      cases s with
      | reference helper specifier name bs => exact absurd rfl (hunbound helper specifier name bs)
      | _ => rfl
    -- Neither a helper nor a reference comes in, so what is known of them stays.
    refine h.append_import (by rw [hbound]; rfl) himports ?_ ?_
      (fun heq ↦ absurd heq (hplain _ _ _)) fun heq ↦ absurd heq (hunbound _ _ _ _)
    · rw [hnames, boundModules_append, hbound, List.append_nil]
      exact h.fresh
    · rw [hnames]
      exact .refl d.names
  | defaultOnly specifier n hnames himports =>
    have hbound : boundModules (d.imports ++ [.defaultOnly d.names.forDefault.1 specifier n])
        = boundModules d.imports := by
      rw [boundModules_append]
      exact List.append_nil _
    refine h.append_import rfl himports ?_ ?_ ?_ nofun
    · rw [hnames, hbound]
      exact h.fresh.forDefault
    · rw [hnames]
      exact .forDefault d.names
    · rintro _ _ _ ⟨⟩
      rw [hnames]
      exact (forDefault_eq d.names).1
  | reference specifier bs hnames himports =>
    refine h.append_import rfl himports ?_ ?_ nofun ?_
    · rw [hnames, boundModules_append, List.map_append]
      exact h.fresh.forWhole.forModule specifier
    · rw [hnames]
      exact .reference d.names specifier
    · rintro _ _ _ _ ⟨⟩
      rw [hnames]
      exact (forWhole_eq d.names).1

end NamesApart

theorem fresh_emptyDraft (features : Features) (source : List Char) (m : Module) :
    (emptyDraft features source m).names.Fresh (namesIn m.items) [] := by
  have hstart := Names.Fresh.ofScript m
  rw [emptyDraft, promiseEdits]
  split
  · exact hstart
  · exact hstart.forWhole

theorem namesApart_of_draft (h : draft features source m = .ok d) :
    NamesApart (namesIn m.items) (m.items.filterMap (referencedModule? features)) d := by
  obtain ⟨r, hrun, rfl⟩ := exists_run_of_draft h
  have hstart : NamesApart (namesIn m.items) [] (emptyDraft features source m) :=
    ⟨fresh_emptyDraft features source m, rfl, fun hs ↦ (nomatch hs), fun hs ↦ (nomatch hs)⟩
  have hr := foldlM_induction (fun done u ↦
    NamesApart (namesIn m.items) (done.filterMap (referencedModule? features)) u) hstart
    (fun done n u v hu hv ↦ by
      have hone : [n].filterMap (referencedModule? features)
          = (referencedModule? features n).toList := by
        rw [List.filterMap_eq_flatMap_toList, List.flatMap_singleton]
      rw [List.filterMap_append, hone]
      exact hu.generates (Draft.generates_convert hv)) hrun
  exact ⟨hr.fresh, hr.referenced, hr.defaultHelper, hr.wholeHelper⟩

/-! ## Converted scripts -/

/-- The names that a conversion generates: its two helpers, if they are needed, and a reference for
each module that has to be referred to. They differ from each other and from every name that the
script binds or refers to anywhere. The statements of the header and the converted dynamic imports
call the helpers by these names. -/
structure WellNamed (features : Features) (source : List Char) (m : Module) (d : Draft) :
    Prop where
  nodup : (generatedNames d).Nodup
  looksGenerated : ∀ name ∈ generatedNames d, LooksGenerated name
  unused : ∀ name ∈ generatedNames d, ∀ n ∈ Node.nodes m.items, name ∉ n.ownNames
  references : (boundModules d.imports).map Prod.snd
    = m.items.filterMap (referencedModule? features)
  defaultHelper : ∀ helper specifier n, .defaultOnly helper specifier n ∈ d.imports →
    d.names.defaultHelper = some helper
  wholeHelper : ∀ helper specifier name bs, .reference helper specifier name bs ∈ d.imports →
    d.names.wholeHelper = some helper
  promises : ∀ e ∈ promisesOf features source m, ∃ helper, d.names.wholeHelper = some helper ∧
    ∃ p ∈ dynamicImports m, e = promiseEdit source helper p

theorem wellNamed_of_draft (h : draft features source m = .ok d) :
    WellNamed features source m d := by
  have hapart := namesApart_of_draft h
  refine ⟨hapart.fresh.nodup, hapart.fresh.looksGenerated, fun name hname n hn hown ↦ ?_,
    hapart.referenced, fun _ _ _ ↦ hapart.defaultHelper, fun _ _ _ _ ↦ hapart.wholeHelper,
    fun e he ↦ ?_⟩
  · exact hapart.fresh.notMem_script name hname (List.mem_flatMap.mpr ⟨n, hn, hown⟩)
  · obtain ⟨-, p, hp, heq⟩ := mem_promisesOf he
    exact ⟨importHelper m, hasHelper_of_draft (List.ne_nil_of_mem he) h, p, hp, heq⟩

end Downlevel.CommonJs
