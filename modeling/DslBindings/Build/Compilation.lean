import DslBindings.Files.FileSystem

/-!
# Compilations

What a compiler is asked to do, how it is called, and how it fails.
-/

namespace DslBindings

/-- Sources to compile into an archive against a class path. -/
structure Compilation where
  output : Path
  sources : List Path
  classPath : List Path
  deriving DecidableEq, Repr, Inhabited

/-- Why a compilation failed. -/
inductive CompilationError
  /-- The compiler could not be started. -/
  | launch (program : String) (error : IoError)
  /-- The compiler ended with a status other than zero. -/
  | failed (output : Path) (status : Nat) (diagnostics : String)
  deriving DecidableEq, Repr, Inhabited

namespace CompilationError

/-- The status of a process that has ended, in words. -/
def statusText (status : Nat) : String := "exit status: " ++ toString status

/-- An error in words. -/
def message : CompilationError → String
  | .launch program e => "Failed to launch compiler `" ++ program ++ "`: " ++ e.message
  | .failed output status diagnostics =>
    "Compilation of " ++ output.text ++ " failed (" ++ statusText status ++ "):\n" ++ diagnostics

/-- What an error was caused by, in words. -/
def causes : CompilationError → List String
  | .launch _ e => [e.message]
  | .failed .. => []

end CompilationError

namespace Compilation

/-- Paths as one list separated by colons. -/
def joined (paths : List Path) : Except IoError String :=
  if paths.any fun p => p.text.toList.contains ':' then .error .separatorInPath
  else .ok (":".intercalate (paths.map Path.text))

/-- The arguments that give a class path. An empty one is not given. -/
def classPathArguments : (classPath : List Path) → Except IoError (List String)
  | [] => .ok []
  | p :: ps => (joined (p :: ps)).map fun list => ["-classpath", list]

/-- The arguments that a compiler is called with. -/
def arguments (c : Compilation) : Except IoError (List String) := do
  let classPath ← classPathArguments c.classPath
  let arguments := ["-d", c.output.text] ++ classPath ++ c.sources.map Path.text
  if arguments.any Path.textHoldsNul then throw .nulInArgument else return arguments

end Compilation

end DslBindings
