import DslBindings.Header
import DslBindings.Naming
import DslBindings.Schema
import DslBindings.Sink

/-!
# Accessors of a project schema

For each extension and each convention of a schema, a block with a property that retrieves it and a
function that configures it. A name that no declaration can have gets no block, and an extension
shadows the convention of the same name.
-/

namespace DslBindings.Accessors

/-- The accessors of an extension. -/
def extensionBlock (name type : String) : String :=
  let id := Naming.quote name
  let literal := Naming.stringLiteral name
  s!"/**
 * Retrieves the [{name}][{type}] project extension.
 */
val Project.{id}: {type} get() =
    extensions.getByName({literal}) as {type}

/**
 * Configures the [{name}][{type}] project extension.
 */
fun Project.{id}(configure: {type}.() -> Unit): Unit =
    extensions.configure({literal}, configure)
"

/-- The accessors of a convention. -/
def conventionBlock (name type : String) : String :=
  let id := Naming.quote name
  let literal := Naming.stringLiteral name
  s!"/**
 * Retrieves the [{name}][{type}] project convention.
 */
val Project.{id}: {type} get() =
    convention.getPluginByName<{type}>({literal})

/**
 * Configures the [{name}][{type}] project convention.
 */
fun Project.{id}(configure: {type}.() -> Unit): Unit =
    configure(this.{id})
"

/-- The entries of a registry whose names a declaration can have. -/
def legalEntries (entries : List (String × String)) : List (String × String) :=
  entries.filter fun (name, _) => Naming.isLegal name

/-- The blocks of a schema: those of the extensions, then those of the conventions. -/
def blocks (s : ProjectSchema String) : List String :=
  (legalEntries s.extensions.toList).map (fun (name, type) => extensionBlock name type)
    ++ (legalEntries s.unshadowedConventions).map fun (name, type) => conventionBlock name type

/-- What is written for a schema, piece by piece. -/
def pieces (s : ProjectSchema String) : List String :=
  Header.accessors :: (blocks s).flatMap fun block => ["\n", block]

/-- The source file of the accessors of a schema. -/
def source (s : ProjectSchema String) : String := String.join (pieces s)

/-- Writes the source file of a schema. If the sink took all of it, the answer counts the blocks. -/
def writeTo (sink : Sink) (s : ProjectSchema String) : Option Nat × Sink :=
  match sink.writeAll (pieces s) with
  | (true, sink') => (some (blocks s).length, sink')
  | (false, sink') => (none, sink')

end DslBindings.Accessors
