import DslBindings.Accessors
import DslBindings.Build.DirectoryCache
import DslBindings.Build.Snapshot
import DslBindings.Rendering

/-!
# Resolving the accessors of projects

The schema of a project comes from the snapshot of its build, or else from the project itself if
that asks for it. The accessors of a schema are compiled into a directory of the cache whose key
tells the schema and the class path.

A resolver keeps what it has found out: the class path of each project and the snapshot of each
build. A failure is not kept.
-/

namespace DslBindings

/-- Why there is no class path, or no schema, for a project. -/
inductive ResolverError
  /-- More can still be attached to the project with this path. -/
  | notLocked (project : String)
  | schema (error : JsonFileError)
  /-- The source file of the accessors could not be written. -/
  | source (path : Path) (error : IoError)
  | compilation (error : CompilationError)
  /-- The cache has no directory of this name. -/
  | cache (directoryName : String) (error : IoError)
  deriving DecidableEq, Repr, Inhabited

namespace ResolverError

/-- An error in words. -/
def message : ResolverError → String
  | .notLocked project =>
    "Cannot introspect the schema of project `" ++ project
      ++ "`: its classloader scope is not locked yet"
  | .schema e => e.message
  | .source path _ => "Failed to write accessors source " ++ path.text
  | .compilation _ => "Failed to compile project accessors"
  | .cache directoryName _ => "Failed to materialize cache directory `" ++ directoryName ++ "`"

/-- What an error was caused by, in words. -/
def causes : ResolverError → List String
  | .notLocked _ => []
  | .schema e => e.causes
  | .source _ e | .cache _ e => [e.message]
  | .compilation e => e.message :: e.causes

/-- The error that a failure of the cache is while the directory of this name is asked for. -/
def ofCacheError (directoryName : String) : CacheError ResolverError → ResolverError
  | .io e => .cache directoryName e
  | .population e => e

end ResolverError

/-- What a resolver keeps. -/
structure Resolver where
  classPaths : List (ProjectKey × AccessorsClassPath) := []
  /-- The snapshots by the components of their roots. A build may have none. -/
  snapshots : List (List String × Option BuildSchema) := []

/-- What resolving works with. -/
structure Resolution where
  resolver : Resolver
  workspace : Workspace

/-- What is done to resolve something. -/
abbrev Resolving (α : Type) := ExceptT ResolverError (StateM Resolution) α

namespace Resolving

/-- Work in the workspace. -/
def perform (work : Work ResolverError α) : Resolving α := ExceptT.mk fun r =>
  let (result, workspace) := work.run r.workspace
  (result, { r with workspace })

/-- What the resolver keeps. -/
def kept : Resolving Resolver := do return (← get).resolver

/-- Keeps the snapshot of a build. -/
def keepSnapshot (root : Path) (schemas : Option BuildSchema) : Resolving Unit :=
  modify fun r =>
    { r with resolver.snapshots := (root.components, schemas) :: r.resolver.snapshots }

/-- Keeps the class path of a project. -/
def keepClassPath (key : ProjectKey) (classPath : AccessorsClassPath) : Resolving Unit :=
  modify fun r => { r with resolver.classPaths := (key, classPath) :: r.resolver.classPaths }

end Resolving

namespace Accessors

/-- The start of the names of cache directories. -/
def cacheLabel : String := "gradle-kotlin-dsl-accessors"

/-- The key of the accessors of a schema that are compiled against a class path. -/
def cacheKey (schema : ProjectSchema String) (classPath : List Path) : CacheKey :=
  ⟨cacheLabel, schema.cacheKey :: classPath.map Path.text⟩

/-- The compiled accessors in a cache directory. -/
def archive (directory : Path) : Path := directory.joinText "gradle-kotlin-dsl-accessors.jar"

/-- The sources in a cache directory. -/
def sourceDirectory (directory : Path) : Path := directory.joinText "src"

/-- The source file of the accessors in a cache directory. -/
def sourceFile (directory : Path) : Path :=
  (sourceDirectory directory).join ⟨["org", "gradle", "kotlin", "dsl", "accessors.kt"]⟩

/-- The class path in a cache directory. -/
def classPathIn (directory : Path) : AccessorsClassPath :=
  ⟨[archive directory], [sourceDirectory directory]⟩

/-- Writes the source file of the accessors of a schema into a directory. -/
def writeSource (schema : ProjectSchema String) (directory : Path) : Work IoError Unit := do
  let file := sourceFile directory
  match file.parent? with
  | some parent => Work.createDirectories parent
  | none => pure ()
  Work.change fun fs => fs.write file (Text.utf8 (source schema))

/-- Populates a cache directory with the accessors of a schema. -/
def populate (compiler : Compiler) (schema : ProjectSchema String) (classPath : List Path)
    (directory : Path) : Work ResolverError Unit := do
  let file := sourceFile directory
  (writeSource schema directory).failingWith (.source file)
  let job : Compilation := ⟨archive directory, [file], classPath⟩
  Work.record (.compilation job)
  (compiler job).failingWith .compilation

/-- The class path of the accessors of a schema, compiled unless the cache has them. -/
def compile (cache : DirectoryCache) (compiler : Compiler) (schema : ProjectSchema String)
    (classPath : List Path) : Work ResolverError AccessorsClassPath := do
  let key := cacheKey schema classPath
  let directory ← (cache.directoryFor key (populate compiler schema classPath)).failingWith
    (ResolverError.ofCacheError key.directoryName)
  return classPathIn directory

end Accessors

namespace Resolver

/-- The snapshot of the build with this root, if it has one. -/
def snapshot (root : Path) : Resolving (Option BuildSchema) := do
  match (← Resolving.kept).snapshots.lookup root.components with
  | some schemas => return schemas
  | none =>
    let schemas ← Resolving.perform do
      Work.record (.snapshotRead root)
      Work.look fun fs => (Snapshot.load? fs root).mapError .schema
    Resolving.keepSnapshot root schemas
    return schemas

/-- The live schema of a project, if the project asks for it. -/
def liveSchema (p : Project) : Resolving (Option (ProjectSchema String)) := do
  if !p.wantsLiveSchema then return none
  if !p.isLocked then throw (.notLocked p.path)
  Resolving.perform (Work.record (.introspection p.key))
  return some (p.liveSchema.map Rendering.type)

/-- The schema of a project, if it has one. -/
def schema (p : Project) : Resolving (Option (ProjectSchema String)) := do
  let schemas ← snapshot p.root
  match schemas.bind fun schemas => schemas[p.path]? with
  | some schema => return some schema
  | none => liveSchema p

/-- The class path of the accessors of a project, whatever is kept of it. -/
def resolve (cache : DirectoryCache) (compiler : Compiler) (p : Project) (classPath : List Path) :
    Resolving AccessorsClassPath := do
  match ← schema p with
  | none => return .empty
  | some schema => Resolving.perform (Accessors.compile cache compiler schema classPath)

/-- The class path of the accessors of a project, compiled against a class path. -/
def classPath (cache : DirectoryCache) (compiler : Compiler) (p : Project)
    (classPath : List Path) : Resolving AccessorsClassPath := do
  match (← Resolving.kept).classPaths.lookup p.key with
  | some found => return found
  | none =>
    let found ← resolve cache compiler p classPath
    Resolving.keepClassPath p.key found
    return found

end Resolver

end DslBindings
