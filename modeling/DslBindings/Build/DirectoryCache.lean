import DslBindings.Build.Workspace
import DslBindings.Digest
import DslBindings.Text.Fresh

/-!
# Directory caches

A directory cache keeps one directory for each key below its root. A directory is populated under
another name next to its place, and gets its own name when that is done; so a directory that is
there is complete, and a population that fails leaves nothing behind.
-/

namespace DslBindings

/-- A directory cache. -/
structure DirectoryCache where
  root : Path
  /-- What the name of a directory ends with while it is populated. -/
  stagingLabel : String := "staged"
  deriving DecidableEq, Repr, Inhabited

/-- Why a cache has no directory for a key. -/
inductive CacheError (ε : Type)
  | io (error : IoError)
  /-- The population failed. -/
  | population (error : ε)
  deriving DecidableEq, Repr, Inhabited

namespace DirectoryCache

/-- The directory of a key. -/
def directory (cache : DirectoryCache) (key : CacheKey) : Path :=
  cache.root.joinText key.directoryName

/-- The names of what is in a directory. -/
def namesAt (fs : FileSystem) (p : Path) : List String :=
  match fs.locate p with
  | .ok location => fs.namesIn location
  | .error _ => []

/-- Where the directory of a key is populated: next to its place, under a name that is free. -/
def staging (cache : DirectoryCache) (fs : FileSystem) (key : CacheKey) : Path :=
  (fs.absolute cache.root).joinText
    (Text.freshName (namesAt fs cache.root) ("." ++ key.directoryName ++ "-" ++ cache.stagingLabel))

/-- Removes a directory, if it is still there. -/
def discardStaging (staging : Path) : Work ε Unit := do
  match (← Work.files).remove staging with
  | .ok fs => Work.putFiles fs
  | .error _ => return ()

/-- Gives a populated directory its name. Another one that is there by now is as good. -/
def publish (staging target : Path) : Work (CacheError ε) Path := do
  match (← Work.files).rename staging target with
  | .ok fs =>
    Work.putFiles fs
    return target
  | .error e =>
    let isThere := (← Work.files).isDirectory target
    discardStaging staging
    if isThere then return target else throw (.io e)

/-- Makes the directory that the directory of a key is populated as. -/
def prepare (cache : DirectoryCache) (key : CacheKey) : Work (CacheError ε) Path := do
  (Work.createDirectories cache.root).failingWith .io
  let staging := cache.staging (← Work.files) key
  Work.change fun fs => (fs.createDirectory staging).mapError .io
  return staging

/-- Populates the directory of a key. -/
def create (cache : DirectoryCache) (key : CacheKey) (populate : Path → Work ε Unit) :
    Work (CacheError ε) Path := do
  let staging ← cache.prepare key
  match ← (populate staging).outcome with
  | .ok () => publish staging (cache.directory key)
  | .error e =>
    discardStaging staging
    throw (.population e)

/-- The directory of a key. It is populated unless it is there. -/
def directoryFor (cache : DirectoryCache) (key : CacheKey) (populate : Path → Work ε Unit) :
    Work (CacheError ε) Path := do
  Work.record (.cacheAccess key)
  let target := cache.directory key
  if (← Work.files).isDirectory target then return target else cache.create key populate

end DirectoryCache

end DslBindings
