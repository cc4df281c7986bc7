import DslBindings.Build.Resolver
import DslBindings.ClassPath.Scan
import DslBindings.Configuration

/-!
# Failures of commands
-/

namespace DslBindings

/-- Why a command failed. -/
inductive CommandError
  | configuration (error : ConfigurationError)
  | scan (error : ScanError)
  /-- The documentation or the live schema cannot be read. -/
  | json (error : JsonFileError)
  /-- The output cannot be written. -/
  | output (error : IoError)
  | resolver (error : ResolverError)
  | noSchema (project : String)
  /-- So many methods got no extension function. -/
  | failedExtensions (count : Nat)
  deriving DecidableEq, Repr, Inhabited

namespace CommandError

/-- What is said where a project has no schema. -/
def noSchemaMessage (project : String) : String := "No schema available for project " ++ project

/-- An error in words. -/
def message : CommandError → String
  | .configuration e => e.message
  | .scan e => e.message
  | .json e => e.message
  | .output e => e.message
  | .resolver e => e.message
  | .noSchema project => noSchemaMessage project
  | .failedExtensions count => toString count ++ " extensions could not be generated"

/-- What an error was caused by, in words. -/
def causes : CommandError → List String
  | .configuration e => e.causes
  | .scan e => e.causes
  | .json e => e.causes
  | .resolver e => e.causes
  | .output _ | .noSchema _ | .failedExtensions _ => []

/-- All that is said about an error: itself, and its causes on lines of their own. -/
def report (e : CommandError) : String :=
  "Error: " ++ e.message ++ "\n" ++ String.join (e.causes.map fun cause => "  caused by: " ++ cause ++ "\n")

end CommandError

end DslBindings
