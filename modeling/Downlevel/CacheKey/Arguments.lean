import Downlevel.Failure
import Downlevel.Json.Basic

/-!
# Requests for cache keys

A test runner asks for a key with the text and the path of a script and further arguments, of which
there are two conventions.
-/

namespace Downlevel

/-- The further arguments of a request. -/
inductive KeyArguments where
  /-- One object, which holds the configuration as a string and much else. -/
  | options (configText : String) (value : Json)
  /-- The configuration as a string and as a value. -/
  | positional (configText : String) (value : Json)
  deriving Inhabited

namespace KeyArguments

/-- Reads the arguments behind the text and the path of a script. -/
def ofValues : List Json → Except ArgumentError KeyArguments
  | [value] =>
    match (value.get? "configString").bind Json.string? with
    | some s => .ok (.options s value)
    | none => .error .options
  | [configText, value] =>
    match configText.string? with
    | some s => .ok (.positional s value)
    | none => .error .configText
  | values => .error (.count values.length)

/-- The configuration as a string. -/
def configText : KeyArguments → String
  | options s _ | positional s _ => s

end KeyArguments

end Downlevel
