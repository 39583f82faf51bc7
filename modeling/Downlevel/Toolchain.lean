import Downlevel.CacheKey.Arguments
import Downlevel.CacheKey.Basic
import Downlevel.CommonJs.Output
import Downlevel.Language
import Downlevel.Typed.Plain

/-!
# Toolchains

A toolchain takes one file all the way: a typed script loses its types, the compiler from outside
turns the file into a module, and the module is converted. It also gives the key under which the
result may be kept.
-/

namespace Downlevel

/-- The version of the compiler that is meant where none is given. -/
def defaultCompilerVersion : String := "2.45.3"

/-- What files are compiled and converted with. -/
structure Toolchain where
  typed : TypedConfig
  modules : ModuleConfig
  compilerVersion : String
  deriving DecidableEq, Repr

/-- What the compiler is asked to do. -/
structure CompileRequest where
  /-- The text to compile; its map is carried within it. -/
  source : ScriptUnit
  path : String
  options : CompilerOptions
  deriving DecidableEq, Repr

namespace Toolchain

/-- The toolchain with the default configurations for a version of the compiler. -/
def ofVersion (version : String) : Toolchain := ⟨default, default, version⟩

instance : Inhabited Toolchain := ⟨ofVersion defaultCompilerVersion⟩

/-- What is compiled for a file: a typed script without its types, any other file as it is. -/
def compilerSource (t : Toolchain) (source path : String) : Except Failure ScriptUnit :=
  if (Language.ofPath path).isTyped then Typed.toPlain t.typed path source
  else .ok ⟨source, none⟩

/-- What the compiler is asked to do for a file. -/
def compileRequest (t : Toolchain) (isScopedStyle : String → Bool) (source path : String) :
    Except Failure CompileRequest := do
  return ⟨← t.compilerSource source path, path, .ofPath isScopedStyle path⟩

/-- What becomes of the answer of the compiler. -/
def convert (t : Toolchain) (path : String) (compiled : Except String ScriptUnit) :
    Except Failure ScriptUnit :=
  match compiled with
  | .ok unit => CommonJs.convert t.modules (compiledName path) unit.code unit.map
  | .error message => .error (.compiler message)

/-- Compiles and converts a file. -/
def run (t : Toolchain) (isScopedStyle : String → Bool)
    (compile : CompileRequest → Except String ScriptUnit) (source path : String) :
    Except Failure ScriptUnit := do
  t.convert path (compile (← t.compileRequest isScopedStyle source path))

/-- The environment as it goes into keys: one that is not set has a name as well. -/
def environmentName (environment : Option String) : String := environment.getD "undefined"

/-- The key under which the result for a file may be kept. -/
def cacheKey (t : Toolchain) (environment : Option String) (sourceText sourcePath : String)
    (args : KeyArguments) : String :=
  KeyFields.key
    ⟨sourceText, sourcePath, args.configText, environmentName environment, t.compilerVersion⟩

end Toolchain

/-! ## Shared toolchains -/

/-- The toolchains that are shared by everyone who names the same version, in the order of their
first use. -/
structure SharedToolchains where
  instances : List (String × Toolchain)
  deriving Repr

namespace SharedToolchains

/-- No toolchain has been asked for. -/
def empty : SharedToolchains := ⟨[]⟩

/-- The number of the toolchain for a version, if there is one. -/
def number? (shared : SharedToolchains) (version : String) : Option Nat :=
  shared.instances.findIdx? (·.1 == version)

/-- The toolchain for a version with its number; it is made on first use. -/
def get (shared : SharedToolchains) (version : String) :
    Nat × Toolchain × SharedToolchains :=
  match shared.number? version, shared.instances.lookup version with
  | some i, some t => (i, t, shared)
  | _, _ =>
    let t := Toolchain.ofVersion version
    (shared.instances.length, t, ⟨shared.instances ++ [(version, t)]⟩)

end SharedToolchains

end Downlevel
