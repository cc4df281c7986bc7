import DslBindings.Build.Workspace
import DslBindings.Files.JsonFile
import DslBindings.Json.Printer

/-!
# Snapshots

The schemas of all projects of a build, in a file below its root. A snapshot is written under
another name first, so that nobody reads a part of one.
-/

namespace DslBindings.Snapshot

/-- The file of the snapshot of a build. -/
def file (root : Path) : Path := root.join ⟨["gradle", "project-schema.json"]⟩

/-- The file that a snapshot is written to first. -/
def temporaryFile (root : Path) : Path := root.join ⟨["gradle", "project-schema.tmp"]⟩

/-- The schemas in the snapshot of a build, if it has one. -/
def load? (fs : FileSystem) (root : Path) : Except JsonFileError (Option BuildSchema) :=
  if fs.isFile (file root) then some <$> fs.readJson BuildSchema.ofJson? (file root) else .ok none

/-- The text of a snapshot. -/
def text (schemas : BuildSchema) : String := (BuildSchema.toJson schemas).renderPretty

/-- Writes the snapshot of a build and gives back its file. -/
def write (root : Path) (schemas : BuildSchema) : Work JsonFileError Path := do
  let p := file root
  match p.parent? with
  | some directory => (Work.createDirectories directory).failingWith (.io p)
  | none => pure ()
  Work.change fun fs => (fs.write (temporaryFile root) (Text.utf8 (text schemas))).mapError (.io p)
  Work.change fun fs => (fs.rename (temporaryFile root) p).mapError (.io p)
  return p

end DslBindings.Snapshot
