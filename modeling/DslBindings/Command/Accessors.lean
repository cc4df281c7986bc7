import DslBindings.Command.Error
import DslBindings.Command.Invocation

/-!
# The accessors of a project outside a build

The project is one of a build that does not run: its schema is that of the snapshot, or else the one
in a file that stands in for it. The three tasks share that schema, the cache key and the cache.
-/

namespace DslBindings

namespace ProjectRequest

/-- The live schema that a request has in a file, if it has one. -/
def readLiveSchema (r : ProjectRequest) (fs : FileSystem) :
    Except JsonFileError (Option (ProjectSchema JvmType)) :=
  match r.liveSchema with
  | some file => some <$> fs.readJson (ProjectSchema.ofJson? JvmType.ofJson?) file
  | none => .ok none

/-- The project with this live schema. It asks for accessors of that if there is one. -/
def projectWith (r : ProjectRequest) (live : Option (ProjectSchema JvmType)) : Project where
  root := r.root
  path := r.project
  properties :=
    match live with
    | some _ => [(Project.accessorsProperty, Project.liveValue)]
    | none => []
  isLocked := true
  liveSchema := live.getD .empty

/-- The project that a request is about. -/
def read (r : ProjectRequest) : Work CommandError Project :=
  Work.look fun fs => ((r.readLiveSchema fs).map r.projectWith).mapError .json

end ProjectRequest

/-- Where the accessors of a run are kept. -/
structure AccessorsStore where
  cache : DirectoryCache
  compiler : Compiler

/-- What a resolver finds out that keeps nothing from before, and for nobody. -/
def Resolving.once (question : Resolving α) : Work CommandError α := ExceptT.mk fun w =>
  let (answer, r) := question.run ⟨{}, w⟩
  (answer.mapError .resolver, r.workspace)

namespace ProjectTask

/-- The schema of a project. It is a failure not to have one. -/
def schemaOf (p : Project) : Work CommandError (ProjectSchema String) := do
  match ← (Resolver.schema p).once with
  | some schema => return schema
  | none => throw (.noSchema p.path)

/-- A class path as it is printed, or what is said where a project has none. -/
def classPathText (p : Project) (c : AccessorsClassPath) : String :=
  if c.isEmpty then CommandError.noSchemaMessage p.path ++ "\n"
  else
    String.join (c.bin.map fun path => "bin: " ++ path.text ++ "\n")
      ++ String.join (c.src.map fun path => "src: " ++ path.text ++ "\n")

/-- A cache key as it is printed, with the name of its directory and whether that is there. -/
def cacheKeyText (key : CacheKey) (isCached : Bool) : String :=
  "key:\n" ++ key.toText ++ "\ndirectory: " ++ key.directoryName
    ++ "\ncached: " ++ toString isCached ++ "\n"

/-- Does a task for a project. The result is what is printed. -/
def perform (store : AccessorsStore) (p : Project) (classPath : List Path) :
    ProjectTask → Work CommandError String
  | .resolve => do
    let found ← (Resolver.classPath store.cache store.compiler p classPath).once
    return classPathText p found
  | .report => do return Accessors.source (← schemaOf p)
  | .cacheKey => do
    let key := Accessors.cacheKey (← schemaOf p) classPath
    return cacheKeyText key ((← Work.files).isDirectory (store.cache.directory key))

end ProjectTask

end DslBindings
