import Downlevel.ScopedImport.Basic

/-!
# Passes

What is done to scripts: the passes that are on, and what becomes of source maps. There is one
configuration for the removal of types and one for the conversion of modules.
-/

namespace Downlevel

/-- What becomes of the source map of a script. -/
inductive MapPolicy where
  /-- There is none. -/
  | off
  /-- The script carries it. -/
  | inline
  /-- It is handed back beside the script. -/
  | external
  /-- The script carries it, and it is handed back. -/
  | both
  deriving DecidableEq, Inhabited, Repr

namespace MapPolicy

/-- Whether scripts carry their maps. -/
def carries : MapPolicy → Bool
  | inline | both => true
  | off | external => false

/-- Whether maps are handed back. -/
def handsBack : MapPolicy → Bool
  | external | both => true
  | off | inline => false

end MapPolicy

/-- A part of the work. -/
inductive Pass where
  /-- Accepts fields in classes. -/
  | classProperties
  /-- Accepts decorators, those of exported classes in front of `export` or behind it. -/
  | decorators (beforeExport : Bool)
  /-- Accepts types, and fields that are only declared if `allowDeclareFields` is on. -/
  | typescript (allowDeclareFields : Bool)
  /-- Turns dynamic imports into calls of `require`. -/
  | dynamicImport
  /-- Turns imports and exports into calls of `require` and assignments. -/
  | modulesCommonJs
  /-- Guards the scoped imports of a kind. -/
  | scopedImport (kind : ScopedImport)
  deriving DecidableEq, Inhabited, Repr

/-- A set of passes with a name of its own. -/
inductive Preset where
  /-- Moves calls that replace modules by test doubles above all imports. -/
  | jest
  deriving DecidableEq, Inhabited, Repr

/-- The configuration of the removal of types. -/
structure TypedConfig where
  sourceMaps : MapPolicy
  passes : List Pass
  deriving DecidableEq, Repr

/-- Types, fields and decorators in front of `export` are accepted, and the result carries a map. -/
instance : Inhabited TypedConfig where
  default := ⟨.inline, [.classProperties, .decorators true, .typescript true]⟩

/-- The configuration of the conversion of modules. -/
structure ModuleConfig where
  sourceMaps : MapPolicy
  presets : List Preset
  passes : List Pass
  deriving DecidableEq, Repr

/-- Everything is on. -/
instance : Inhabited ModuleConfig where
  default :=
    ⟨.both, [.jest],
      [.dynamicImport, .modulesCommonJs] ++ ScopedImport.all.map Pass.scopedImport⟩

namespace ModuleConfig

/-- Whether a pass is on. -/
def runs (c : ModuleConfig) (p : Pass) : Bool := c.passes.contains p

/-- Whether a preset is on. -/
def uses (c : ModuleConfig) (p : Preset) : Bool := c.presets.contains p

/-- The kinds of scoped imports that are guarded, in the order of the passes. -/
def guardedKinds (c : ModuleConfig) : List ScopedImport :=
  c.passes.filterMap fun
    | .scopedImport kind => some kind
    | _ => none

end ModuleConfig

end Downlevel
