import Downlevel.Proofs.CommonJs.Configuration
import Downlevel.Proofs.CommonJs.Declarations
import Downlevel.Proofs.ScopedImport.Problem

/-!
# When a conversion fails

A conversion goes through the statements of a script with everything that it has collected so far,
but whether a statement can be converted only lies in the statement and the configuration. So the
failure is that of the first statement that cannot be converted, whatever was collected before.
-/

namespace Downlevel.CommonJs

open Script

/-! ## Statements that cannot be converted -/

section Draft

variable {config : ModuleConfig} {source : List Char} {m : Module} {e : Failure}

end Draft

/-! ## Conversions that fail -/

variable {config : ModuleConfig} {filename code : String} {input : Option SourceMap}

end Downlevel.CommonJs
