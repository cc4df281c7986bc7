import DslBindings.Files.Path
import DslBindings.Schema
import DslBindings.Signature.Encoding

/-!
# Projects of a build
-/

namespace DslBindings

/-- A project, as a build knows it. -/
structure Project where
  /-- The root directory of the whole build. -/
  root : Path
  /-- The path of the project in the build. -/
  path : String
  properties : List (String × String)
  /-- Whether nothing can be attached to the project any more. -/
  isLocked : Bool
  /-- The schema of what is attached to the project now. -/
  liveSchema : ProjectSchema JvmType

/-- What a project is told apart by. Roots are the same if they are so name by name. -/
structure ProjectKey where
  root : List String
  path : String
  deriving DecidableEq, Repr, Inhabited

namespace Project

def key (p : Project) : ProjectKey := ⟨p.root.components, p.path⟩

/-- The property that asks for accessors. -/
def accessorsProperty : String := "org.gradle.kotlin.dsl.accessors"

/-- The value with which it asks for the live schema. -/
def liveValue : String := "auto"

/-- Whether a project asks for accessors of its live schema. -/
def wantsLiveSchema (p : Project) : Bool := p.properties.lookup accessorsProperty = some liveValue

end Project

/-- The compiled accessors of a project and their sources. Without a schema there are none. -/
structure AccessorsClassPath where
  bin : List Path
  src : List Path
  deriving DecidableEq, Repr, Inhabited

namespace AccessorsClassPath

def empty : AccessorsClassPath := ⟨[], []⟩

def isEmpty (c : AccessorsClassPath) : Bool := c.bin.isEmpty && c.src.isEmpty

/-- The list of paths that a value is. -/
def paths? (j : Json) : Option (List Path) := j.toListOf? fun p => p.toText?.map Path.ofText

def ofJson? (j : Json) : Option AccessorsClassPath := do
  match ← j.fields? ["bin", "src"] with
  | [bin, src] => return ⟨← bin.required paths?, ← src.required paths?⟩
  | _ => none

def toJson (c : AccessorsClassPath) : Json :=
  .object [("bin", Json.ofTexts (c.bin.map Path.text)),
    ("src", Json.ofTexts (c.src.map Path.text))]

end AccessorsClassPath

end DslBindings
