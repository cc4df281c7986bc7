import DslBindings.Build.Compilation
import DslBindings.Build.Project
import DslBindings.CacheKey

/-!
# Workspaces

What a build works with: a file system, and a record of what it has asked of the world around it.
Work in a workspace can fail after it has changed something.
-/

namespace DslBindings

/-- What a build asks of the world around it. -/
inductive BuildEvent
  /-- The schemas of the build with this root are looked for. -/
  | snapshotRead (root : Path)
  /-- A project is asked for its live schema. -/
  | introspection (project : ProjectKey)
  /-- The directory of a key is asked for. -/
  | cacheAccess (key : CacheKey)
  | compilation (job : Compilation)
  deriving DecidableEq, Repr, Inhabited

/-- A file system and what was asked so far, the latest last. -/
structure Workspace where
  files : FileSystem
  events : List BuildEvent := []

instance : Inhabited Workspace := ⟨⟨.empty, []⟩⟩

/-- What is done in a workspace. -/
abbrev Work (ε α : Type) := ExceptT ε (StateM Workspace) α

namespace Work

/-- The files as they are. -/
def files : Work ε FileSystem := do return (← get).files

/-- Records an event. -/
def record (event : BuildEvent) : Work ε Unit :=
  modify fun w => { w with events := w.events ++ [event] }

/-- Looks something up. -/
def look (f : FileSystem → Except ε α) : Work ε α := do
  match f (← files) with
  | .ok a => return a
  | .error e => throw e

/-- Puts other files in the place of those that are there. -/
def putFiles (fs : FileSystem) : Work ε Unit := modify fun w => { w with files := fs }

/-- Changes the files, or fails and leaves them as they are. -/
def change (f : FileSystem → Except ε FileSystem) : Work ε Unit := do
  match f (← files) with
  | .ok fs => putFiles fs
  | .error e => throw e

/-- Work that fails with other errors. -/
def failingWith (f : ε → δ) (work : Work ε α) : Work δ α := ExceptT.adapt f work

/-- Work that ends with its error as its result. -/
def outcome (work : Work ε α) : Work δ (Except ε α) := ExceptT.mk (Except.ok <$> work.run)

/-- Accepts a failure to create a directory if the directory is there. -/
def unlessDirectory (p : Path) (e : IoError) : Work IoError Unit := do
  if (← files).isDirectory p then return () else throw e

/-- Creates a directory unless it is there. -/
def ensureDirectory (p : Path) : Work IoError Unit := do
  match (← files).createDirectory p with
  | .ok fs => putFiles fs
  | .error e => unlessDirectory p e

/-- Creates a directory, and those above it, unless they are there. -/
def createDirectories (p : Path) : Work IoError Unit := do
  if p.isEmpty then return ()
  match (← files).createDirectory p with
  | .ok fs => putFiles fs
  | .error .notFound =>
    match _ : p.parent? with
    | some q =>
      createDirectories q
      ensureDirectory p
    | none => throw .notFound
  | .error e => unlessDirectory p e
termination_by p.names.length
decreasing_by exact Path.length_names_parent ‹_›

end Work

/-- A compiler. -/
abbrev Compiler := Compilation → Work CompilationError Unit

/-- A program that can be started. -/
structure Program where
  name : String
  /-- What it does with the files for some arguments, with its status and what it complains of. -/
  run : Option ((arguments : List String) → FileSystem → (Nat × String) × FileSystem)

namespace Program

/-- The compiler that a program is. -/
def compiler (p : Program) : Compiler := fun job => do
  match job.arguments with
  | .error e => throw (.launch p.name e)
  | .ok arguments =>
    match p.run with
    | none => throw (.launch p.name .notFound)
    | some run =>
      let ((status, diagnostics), fs) := run arguments (← Work.files)
      Work.putFiles fs
      if status = 0 then return () else throw (.failed job.output status diagnostics)

end Program

end DslBindings
