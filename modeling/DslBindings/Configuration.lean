import DslBindings.ClassPath.Scope
import DslBindings.Files.FileSystem
import DslBindings.Json.Reader
import DslBindings.Json.Record

/-!
# Configurations

What extension functions are generated from, and where to. A configuration file can leave out
everything, and its relative paths start at its own directory.
-/

namespace DslBindings

/-- The settings of a generation. -/
structure Configuration where
  scope : Scope := ⟨["org.gradle.api"], ["org.gradle.api.internal"]⟩
  /-- The file with the documentation of the methods. -/
  documentation : Option Path := none
  /-- The file to write. -/
  output : Path := ⟨["GradleApiExtensions.kt"]⟩
  deriving DecidableEq, Repr

instance : Inhabited Configuration := ⟨{}⟩

/-- Why there is no configuration. -/
inductive ConfigurationError
  | io (error : IoError)
  /-- The file does not hold JSON, or not of the right form. -/
  | malformed
  /-- The scope names something that no dotted name starts with. -/
  | notDotted (start : String)
  deriving DecidableEq, Repr, Inhabited

namespace ConfigurationError

/-- An error in words. -/
def message : ConfigurationError → String
  | .io e => "I/O error: " ++ e.message
  | .malformed => "JSON serialization/deserialization error: invalid document"
  | .notDotted start =>
    "Invalid configuration: package prefix `" ++ start ++ "` must be a non-empty dotted name"

/-- What an error was caused by, in words. -/
def causes : ConfigurationError → List String
  | .io e => [e.message]
  | .malformed => ["invalid document"]
  | .notDotted _ => []

end ConfigurationError

/-- Whether a dotted name can start like this. -/
def Scope.isStart (start : String) : Bool := start ≠ "" && !start.toList.contains '/'

namespace Configuration

/-- The name of a configuration file. -/
def fileName : String := "ktdsl.json"

def ofJson? (j : Json) : Option Configuration := do
  let default : Configuration := {}
  let texts := Json.toListOf? Json.toText?
  let path (j : Json) : Option Path := j.toText?.map Path.ofText
  match ← j.fields? ["include", "exclude", "docs", "output"] with
  | [included, excluded, documentation, output] =>
    return {
      scope := ⟨← included.withDefault default.scope.included texts,
        ← excluded.withDefault default.scope.excluded texts⟩
      documentation := ← documentation.withDefault default.documentation (Json.toOptional? path)
      output := ← output.withDefault default.output path }
  | _ => none

/-- The first name in the scope that no dotted name can start with. -/
def misfit? (c : Configuration) : Option String :=
  (c.scope.included ++ c.scope.excluded).find? (!Scope.isStart ·)

/-- A configuration with its paths as seen from a base. -/
def relocate (c : Configuration) (base : Path) : Configuration :=
  { c with output := base.join c.output, documentation := c.documentation.map base.join }

/-- The configuration in a file. -/
def load (fs : FileSystem) (p : Path) : Except ConfigurationError Configuration := do
  let text ← (fs.readText p).mapError .io
  match (Json.parse text).bind ofJson? with
  | none => throw .malformed
  | some c =>
    match c.misfit?, p.parent? with
    | some start, _ => throw (.notDotted start)
    | none, some base => return c.relocate base
    | none, none => return c

/-- The configuration in a directory. Where there is no file, everything is left out. -/
def discover (fs : FileSystem) (directory : Path) : Except ConfigurationError Configuration :=
  let p := directory.joinText fileName
  if fs.isFile p then load fs p else .ok {}

end Configuration

end DslBindings
