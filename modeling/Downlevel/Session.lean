import Downlevel.Toolchain

/-!
# Sessions

A session works with one toolchain at a time. It may take a shared one, a new one, or a copy of
the one at hand with other configurations; shared toolchains stay as they were made. Between two
changes the toolchain at hand compiles files and gives keys for them.
-/

namespace Downlevel

/-- The toolchains of a session: those that are shared, and the one at hand. -/
structure Session where
  shared : SharedToolchains
  current : Toolchain
  deriving Repr

/-- What changes the toolchain at hand. -/
inductive Session.Change where
  /-- Takes the shared toolchain for a version. -/
  | share (version : String)
  /-- Takes a new toolchain. -/
  | renew (toolchain : Toolchain)
  /-- Takes a copy with other configurations, as far as they are given. -/
  | configure (modules : Option ModuleConfig) (typed : Option TypedConfig)
  deriving Repr

/-- A step of a session: a change of the toolchain at hand, or a use of it. -/
inductive Session.Step where
  | change (change : Change)
  /-- Compiles and converts a file, with the compiler and the mark of scoped styles that this
  step is given. -/
  | run (isScopedStyle : String → Bool) (compile : CompileRequest → Except String ScriptUnit)
      (source path : String)
  /-- Asks for the key of a file. -/
  | key (environment : Option String) (sourceText sourcePath : String) (args : KeyArguments)

/-- What a step gives back. -/
inductive Session.Answer where
  /-- A shared toolchain, and the number that tells it from the other shared ones. -/
  | shared (number : Nat) (toolchain : Toolchain)
  /-- A toolchain of the session's own. -/
  | own (toolchain : Toolchain)
  | result (result : Except Failure ScriptUnit)
  | key (key : String)

namespace Session

/-- A session that has not shared any toolchain and works with the default one. -/
def start : Session := ⟨.empty, default⟩

/-- The copy of a toolchain with other configurations. -/
def configured (t : Toolchain) (modules : Option ModuleConfig) (typed : Option TypedConfig) :
    Toolchain :=
  { t with modules := modules.getD t.modules, typed := typed.getD t.typed }

/-- The session after a change. -/
def apply (s : Session) : Change → Session
  | .share version =>
    let (_, t, shared) := s.shared.get version
    ⟨shared, t⟩
  | .renew t => { s with current := t }
  | .configure modules typed => { s with current := configured s.current modules typed }

/-- The session after a step: the uses of a toolchain leave it as it is. -/
def next (s : Session) : Step → Session
  | .change c => s.apply c
  | .run .. => s
  | .key .. => s

/-- What a step gives back. -/
def answer (s : Session) : Step → Answer
  | .change (.share version) =>
    let (i, t, _) := s.shared.get version
    .shared i t
  | .change c => .own (s.apply c).current
  | .run isScopedStyle compile source path =>
    .result (s.current.run isScopedStyle compile source path)
  | .key environment sourceText sourcePath args =>
    .key (s.current.cacheKey environment sourceText sourcePath args)

/-- The session after some steps. -/
def after (s : Session) (steps : List Step) : Session := steps.foldl next s

/-- What the steps of a run give back, one after the other. -/
def answers (s : Session) : List Step → List Answer
  | [] => []
  | step :: steps => s.answer step :: (s.next step).answers steps

end Session

end Downlevel
