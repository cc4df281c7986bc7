import DslBindings.Command.Run

/-!
# The program

What a run can ask for is read from the disk into a file system, the run takes place there, and what
has changed is written back. No other program is started from here, so a compiler counts as missing.
-/

namespace DslBindings.Disk

/-- The text of a location. -/
def textOf (location : Location) : String := "/" ++ "/".intercalate location

/-- What is on the disk at a location. What cannot be read is not there. -/
def entry? (location : Location) : IO (Option FileEntry) := do
  let path := (← IO.currentDir) / textOf location
  if ← path.isDir then return some .directory
  try
    let content ← IO.FS.readBinFile path
    return some (.file content.toList)
  catch _ => return none

/-- The names of what is on the disk directly below a location. -/
def namesIn (location : Location) : IO (List String) := do
  let path := (← IO.currentDir) / textOf location
  try
    let found ← path.readDir
    return found.toList.map (·.fileName)
  catch _ => return []

/-- Takes over what is on the disk on the way to a location, and there. -/
def loadWay (fs : FileSystem) (location : Location) : IO FileSystem :=
  (List.range location.length).foldlM
    (fun fs depth => do
      let way := location.take (depth + 1)
      match ← entry? way with
      | some entry => return fs.put way entry
      | none => return fs)
    fs

/-- Takes over all that is on the disk below a location. -/
partial def loadBelow (fs : FileSystem) (location : Location) : IO FileSystem := do
  (← namesIn location).foldlM
    (fun fs name => do
      let below := location ++ [name]
      match ← entry? below with
      | some .directory => loadBelow (fs.put below .directory) below
      | some file => return fs.put below file
      | none => return fs)
    fs

/-- The location that a path names. -/
def locationOf (fs : FileSystem) (p : Path) : Location :=
  (fs.absolute p).segments.foldl FileSystem.step []

/-- Takes over what a path leads to. -/
def load (fs : FileSystem) (p : Path) : IO FileSystem := loadWay fs (locationOf fs p)

/-- Takes over what a path leads to and all that is below. -/
def loadTree (fs : FileSystem) (p : Path) : IO FileSystem := do
  loadBelow (← load fs p) (locationOf fs p)

/-- Takes over what a generation can ask for. -/
def loadForGeneration (fs : FileSystem) (r : GenerationRequest) : IO FileSystem := do
  let fs ← r.classPath.foldlM loadTree fs
  let configuration := r.configuration.getD (.ofText Configuration.fileName)
  let fs ← load fs configuration
  match r.configured fs with
  | .ok c =>
    let c := r.override c
    (c.output :: c.documentation.toList).foldlM load fs
  | .error _ => return fs

/-- Takes over what a task for a project can ask for. -/
def loadForProject (env : Environment) (fs : FileSystem) (r : ProjectRequest) : IO FileSystem := do
  let fs ← loadTree fs (env.cacheFor r).root
  (Snapshot.file r.root :: r.liveSchema.toList).foldlM load fs

/-- Takes over what a run can ask for. -/
def loadFor (env : Environment) (fs : FileSystem) (i : Invocation) : IO FileSystem := do
  let fs ← load fs (i.logDirectoryIn env)
  match i.command with
  | .generate r => loadForGeneration fs r
  | .project _ r => loadForProject env fs r

/-- Removes from the disk what a run has removed, what is below first. -/
def removeOld (before after : FileSystem) : IO Unit :=
  before.entries.toList.reverse.forM fun (location, entry) => do
    let path := (← IO.currentDir) / textOf location
    match entry, after.entries[location]? with
    | .file _, none => IO.FS.removeFile path
    | .directory, none => IO.FS.removeDir path
    | _, some _ => return ()

/-- Writes to the disk what a run has written, what is above first. -/
def writeNew (before after : FileSystem) : IO Unit :=
  after.entries.toList.forM fun (location, entry) => do
    let path := (← IO.currentDir) / textOf location
    if before.entries[location]? ≠ some entry then
      match entry with
      | .directory => IO.FS.createDirAll path
      | .file content => IO.FS.writeBinFile path (ByteArray.mk content.toArray)

/-- What a run finds around it. -/
def environment : IO Environment := do
  return {
    home := .ofText ((← IO.getEnv "HOME").getD ".")
    compiler := ⟨(← IO.getEnv "KOTLINC").getD "kotlinc", none⟩ }

/-- The file system of which nothing is known but where relative paths start. -/
def start : IO FileSystem := do
  let here := (Path.ofText (← IO.currentDir).toString).names
  loadWay { FileSystem.empty with workingDirectory := here } here

/-- The file system with what these words can ask for. -/
def loadForWords (env : Environment) (words : List String) : IO FileSystem := do
  match Invocation.ofWords words with
  | .ok i => loadFor env (← start) i
  | .error _ => start

end DslBindings.Disk

open DslBindings in
/-- Runs the program. -/
def main (arguments : List String) : IO UInt32 := do
  let env ← Disk.environment
  let before ← Disk.loadForWords env arguments
  let (report, after) := (runWords env arguments).run ⟨before, []⟩
  Disk.removeOld before after.files
  Disk.writeNew before after.files
  IO.print report.output
  IO.eprint report.errors
  return UInt32.ofNat report.exitCode
