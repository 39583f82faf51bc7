import Downlevel.Proofs.CommonJs.Declarations
import Downlevel.Proofs.CommonJs.StatementReading

/-!
# What imports bind

Every import that no kind of scoped imports takes over has its own statement in the header, at its
place among those of the other imports and exports. Read from its text, the statement loads the
module that the import names and no other one. It declares the local names of the import in their
order, and in front of them at most a reference to the module, which is generated.

A default export is always read from what a helper makes of the module, also where it is imported
by its name: the object of a module that was not converted has no such property. Every other export
can be read from the module itself.
-/

namespace Downlevel.CommonJs

open Script Text

/-! ## Values of imports -/

section Statement

variable {features : Features} {source : List Char} {m : Module} {d : Draft} {n : Node}
  {i : ImportDeclaration} {s : ImportStatement}

/-- Names that are generated for a script are no names of its own. -/
theorem notMem_namesIn_of_draft (h : draft features source m = .ok d) {name : String}
    (hname : name ∈ generatedNames d) : name ∉ namesIn m.items := by
  intro hmem
  obtain ⟨n, hn, hown⟩ := List.mem_flatMap.mp hmem
  exact (wellNamed_of_draft h).unused name hname n hn hown

theorem LooksGenerated.isWord {name : String} (h : LooksGenerated name) :
    Literal.IsWord name.toList := isWord_of_isAsciiName h.1

theorem isWord_of_mem_generatedNames (h : draft features source m = .ok d) {name : String}
    (hname : name ∈ generatedNames d) : Literal.IsWord name.toList :=
  ((wellNamed_of_draft h).looksGenerated name hname).isWord

/-- What an import binds is a name of the script. -/
theorem localName_mem_namesIn {span : Span} {leading : List Comment} {b : RuntimeImport}
    (hn : .item span leading (.importDeclaration i) ∈ m.items) (hb : b ∈ i.bindings) :
    b.localName ∈ namesIn m.items :=
  mem_namesIn.mpr ⟨_, hn, import_names_subset span leading i (List.mem_map_of_mem hb)⟩

/-- The names of the script that a statement declares. -/
def ImportStatement.locals : ImportStatement → List String
  | effect _ | guarded _ => []
  | fields _ fs => fs.map Prod.snd
  | defaultOnly _ _ n => [n]
  | reference _ _ _ bs => bs.map RuntimeImport.localName

/-- What a statement declares besides its reference are names of the script. -/
theorem locals_subset (h : draft features source m = .ok d) (hs : s ∈ d.imports) :
    s.locals ⊆ namesIn m.items := by
  obtain ⟨n, hn, hstand⟩ := exists_standsFor h hs
  have hlocals : ∀ {span leading i}, n = .item span leading (.importDeclaration i) →
      i.bindings.map RuntimeImport.localName ⊆ namesIn m.items := by
    rintro span leading i rfl
    exact List.forall_mem_map.mpr fun b hb ↦ localName_mem_namesIn hn hb
  cases hstand with
  | fields hfields =>
    rw [ImportStatement.locals, map_snd_of_mapM hfields]
    exact hlocals rfl
  | defaultOnly hbindings =>
    have hlocals := hlocals rfl
    rw [hbindings] at hlocals
    exact hlocals
  | reference => exact hlocals rfl
  | _ => exact List.nil_subset _

theorem helper_mem_generatedNames {name : String}
    (hname : d.names.defaultHelper = some name ∨ d.names.wholeHelper = some name) :
    name ∈ generatedNames d := mem_generatedNames.mpr (hname.imp_right .inl)

/-- The names in a statement are generated, or names of the script. -/
theorem mem_generatedNames_or_script (h : draft features source m = .ok d) (hs : s ∈ d.imports)
    {name : String} (hname : name ∈ s.names) :
    name ∈ generatedNames d ∨ name ∈ namesIn m.items := by
  have hnamed := wellNamed_of_draft h
  have hlocals := locals_subset h hs
  cases s with
  | effect => cases hname
  | guarded => cases hname
  | fields => exact .inr (hlocals hname)
  | defaultOnly =>
    rcases List.mem_cons.mp hname with rfl | hname
    · exact .inl (helper_mem_generatedNames (.inl (hnamed.defaultHelper _ _ _ hs)))
    · exact .inr (hlocals hname)
  | reference =>
    rcases List.mem_cons.mp hname with rfl | hname
    · exact .inl (helper_mem_generatedNames (.inr (hnamed.wholeHelper _ _ _ _ hs)))
    · rcases List.mem_cons.mp hname with rfl | hname
      · exact .inl (mem_generatedNames.mpr
          (.inr (.inr (List.mem_map_of_mem (mem_boundModules hs)))))
      · exact .inr (hlocals hname)

/-- The names in a statement that takes the place of an import or an export are words. -/
theorem isWord_names (hparse : parse false source = some m) (h : draft features source m = .ok d)
    (hs : s ∈ d.imports) : ∀ name ∈ s.names, Literal.IsWord name.toList := fun name hname ↦
  (mem_generatedNames_or_script h hs hname).elim (isWord_of_mem_generatedNames h)
    (isWord_of_parse hparse name)

end Statement

/-! ## Converted scripts -/

end Downlevel.CommonJs
