import Downlevel.ScopedImport.Statement

/-!
# Failures

Everything that can go wrong between a request and its answer.
-/

namespace Downlevel

/-- Why the arguments of a request for a cache key cannot be read. -/
inductive ArgumentError where
  /-- There are too many or too few of them. -/
  | count (n : Nat)
  /-- The only argument has no string as its configuration. -/
  | options
  /-- The first of two arguments is no string. -/
  | configText
  deriving DecidableEq, Repr

/-- The wording of an error in the arguments. -/
def ArgumentError.message : ArgumentError → String
  | count _ => "Unexpected transform arguments."
  | options => "invalid transform argument: options.configString must be a string"
  | configText => "invalid transform argument: configString must be a string"

/-- Why a typed script is refused. -/
inductive TypedProblem where
  /-- It is not a script, or asks for something that cannot be had. -/
  | malformed
  /-- It has class fields, which are not accepted. -/
  | classFields
  /-- It has fields that are only declared, which are not accepted. -/
  | declaredFields
  /-- It has decorators, which are not accepted. -/
  | decorators
  /-- The decorators of an exported class stand on the wrong side of `export`. -/
  | decoratorPlacement (beforeExport : Bool)
  deriving DecidableEq, Repr

/-- The wording of a problem, for those that have one of their own. -/
def TypedProblem.message? : TypedProblem → Option String
  | malformed => none
  | classFields => some "Class fields are not enabled."
  | declaredFields =>
    some "The 'declare' modifier is only allowed when allowDeclareFields is enabled."
  | decorators => some "Decorators are not enabled."
  | decoratorPlacement beforeExport =>
    some <| "Decorators must be placed *" ++ (if beforeExport then "before" else "after")
      ++ "* the 'export' keyword."

/-- Why there is no result for a file. -/
inductive Failure where
  /-- The typed script at a path is refused. -/
  | typed (path : String) (problem : TypedProblem)
  /-- The compiler failed with a message. -/
  | compiler (message : String)
  /-- The compiled script, under its name in source maps, is not a script. -/
  | unreadable (filename : String)
  /-- A module of the platform is imported in a way that has no meaning. -/
  | scopedImport (specifier : String) (problem : ScopedImport.Problem)
  deriving DecidableEq, Repr

end Downlevel
