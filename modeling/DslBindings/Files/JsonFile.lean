import DslBindings.Files.FileSystem
import DslBindings.Json.Reader

/-!
# Files that hold JSON
-/

namespace DslBindings

/-- Why nothing can be made of a file that should hold JSON. -/
inductive JsonFileError
  | io (path : Path) (error : IoError)
  /-- The file does not hold JSON, or not of the right form. -/
  | malformed (path : Path)
  deriving DecidableEq, Repr, Inhabited

namespace JsonFileError

/-- An error in words. -/
def message : JsonFileError → String
  | .io path e => "Failed to read " ++ path.text ++ ": " ++ e.message
  | .malformed path => "Malformed JSON in " ++ path.text ++ ": invalid document"

/-- What an error was caused by, in words. -/
def causes : JsonFileError → List String
  | .io _ e => [e.message]
  | .malformed _ => ["invalid document"]

end JsonFileError

/-- What a file holds as JSON. -/
def FileSystem.readJson (fs : FileSystem) (decode : Json → Option α) (p : Path) :
    Except JsonFileError α :=
  match fs.read p with
  | .error e => .error (.io p e)
  | .ok content =>
    match (Json.parseBytes content).bind decode with
    | some value => .ok value
    | none => .error (.malformed p)

end DslBindings
