import Std.Data.ExtTreeMap
import DslBindings.Files.Error
import DslBindings.Files.Path
import DslBindings.Text.Basic

/-!
# File systems

A file system is a value: what is at each location, and where relative paths start. Operations that
change it give back a new one, or fail and leave it as it is.
-/

namespace DslBindings

/-- The names from the root to a file or directory. -/
abbrev Location := List String

/-- What is at a location. -/
inductive FileEntry
  | file (content : List UInt8)
  | directory
  deriving DecidableEq, Repr, Inhabited

/-- A file system. -/
structure FileSystem where
  /-- Every file and every directory but the root. -/
  entries : Std.ExtTreeMap Location FileEntry
  workingDirectory : Location

namespace FileSystem

/-- The file system without a file. -/
def empty : FileSystem := ⟨∅, []⟩

instance : Inhabited FileSystem := ⟨empty⟩

/-- What is at a location. -/
def at? (fs : FileSystem) : Location → Option FileEntry
  | [] => some .directory
  | location => fs.entries[location]?

/-- Where a segment leads from a directory. -/
def step (here : Location) (segment : String) : Location :=
  if Path.isIdle segment then here else if segment = ".." then here.dropLast else here ++ [segment]

/-- How many bytes a name can have. -/
def nameLimit : Nat := 255

/-- How many bytes a path can have. -/
def pathLimit : Nat := 4095

/-- Where segments lead from a location. Every step starts at a directory. -/
def follow (fs : FileSystem) (here : Location) : (segments : List String) → Except IoError Location
  | [] => .ok here
  | s :: ss =>
    match fs.at? here with
    | none => .error .notFound
    | some (.file _) => .error .notADirectory
    | some .directory =>
      if nameLimit < s.utf8ByteSize then .error .nameTooLong else fs.follow (step here s) ss

/-- Where a path leads. Nothing need be there, but a directory has to be above it. -/
def locate (fs : FileSystem) (p : Path) : Except IoError Location :=
  if p.holdsNul then .error .nulInPath
  else if p.isEmpty then .error .notFound
  else if pathLimit < p.text.utf8ByteSize then .error .nameTooLong
  else fs.follow (if p.isAbsolute then [] else fs.workingDirectory) p.segments

/-- Where a path leads, and what is there. -/
def visit (fs : FileSystem) (p : Path) : Except IoError (Location × FileEntry) := do
  let location ← fs.locate p
  match fs.at? location with
  | some entry => return (location, entry)
  | none => throw .notFound

/-- What a path leads to. -/
def find (fs : FileSystem) (p : Path) : Except IoError FileEntry := (·.2) <$> fs.visit p

def isDirectory (fs : FileSystem) (p : Path) : Bool :=
  match fs.find p with
  | .ok .directory => true
  | _ => false

def isFile (fs : FileSystem) (p : Path) : Bool :=
  match fs.find p with
  | .ok (.file _) => true
  | _ => false

/-- The content of a file. -/
def read (fs : FileSystem) (p : Path) : Except IoError (List UInt8) := do
  match ← fs.find p with
  | .file content => return content
  | .directory => throw .isADirectory

/-- The content of a file as text. -/
def readText (fs : FileSystem) (p : Path) : Except IoError String := do
  match Text.ofUtf8? (← fs.read p) with
  | some text => return text
  | none => throw .notUtf8

/-- A path as seen from the root, if it is not already. -/
def absolute (fs : FileSystem) (p : Path) : Path :=
  (Path.ofNames true fs.workingDirectory).join p

/-- The locations of all that is below a location, as seen from it. -/
def below (fs : FileSystem) (here : Location) : List (Location × FileEntry) :=
  fs.entries.toList.filterMap fun (location, entry) =>
    if here.isPrefixOf location && here ≠ location then some (location.drop here.length, entry)
    else none

/-- The files below a location, as seen from it. -/
def filesBelow (fs : FileSystem) (here : Location) : List (Location × List UInt8) :=
  (fs.below here).filterMap fun
    | (location, .file content) => some (location, content)
    | (_, .directory) => none

/-- The names of what is directly below a location. -/
def namesIn (fs : FileSystem) (here : Location) : List String :=
  (fs.below here).filterMap fun
    | ([name], _) => some name
    | _ => none

/-- Whether a path ends with a slash or a dot, and so can lead to nothing but a directory. -/
def endsIdle (p : Path) : Bool :=
  match p.segments.getLast? with
  | some s => Path.isIdle s
  | none => false

/-- The file system with an entry at a location. -/
def put (fs : FileSystem) (location : Location) (entry : FileEntry) : FileSystem :=
  { fs with entries := fs.entries.insert location entry }

/-- Writes a file, whether there was one or not. -/
def write (fs : FileSystem) (p : Path) (content : List UInt8) : Except IoError FileSystem := do
  let location ← fs.locate p.withoutTrailingSlashes
  if endsIdle p then throw .isADirectory
  match fs.at? location with
  | some .directory => throw .isADirectory
  | _ => return fs.put location (.file content)

/-- Creates a directory. -/
def createDirectory (fs : FileSystem) (p : Path) : Except IoError FileSystem := do
  let location ← fs.locate p.withoutTrailingSlashes
  match fs.at? location with
  | some _ => throw .alreadyExists
  | none => return fs.put location .directory

/-- The file system without what is at a location and below. -/
def removeTree (fs : FileSystem) (location : Location) : FileSystem :=
  { fs with entries := fs.entries.filter fun l _ => !location.isPrefixOf l }

/-- Removes what a path leads to, with all that is below. -/
def remove (fs : FileSystem) (p : Path) : Except IoError FileSystem := do
  let location ← fs.locate p
  match fs.at? location with
  | some _ => return fs.removeTree location
  | none => throw .notFound

/-- What is at a location and below, with the locations that it has once it is moved. -/
def movedEntries (fs : FileSystem) (source target : Location) : List (Location × FileEntry) :=
  fs.entries.toList.filterMap fun entry =>
    if source.isPrefixOf entry.1 then some (target ++ entry.1.drop source.length, entry.2) else none

/-- The file system with all that is at a location, and below, at another one. -/
def moveTree (fs : FileSystem) (source target : Location) : FileSystem :=
  { fs with entries := (fs.removeTree source).entries.insertMany (fs.movedEntries source target) }

/-- Gives what a path leads to another name. A file or an empty directory can be there already. -/
def rename (fs : FileSystem) (source target : Path) : Except IoError FileSystem := do
  let s ← fs.locate source
  let t ← fs.locate target
  match fs.at? s, fs.at? t with
  | none, _ => throw .notFound
  | some entry, there =>
    if s = t then return fs
    if s.isPrefixOf t then throw .intoItself
    match entry, there with
    | .directory, some (.file _) => throw .notADirectory
    | .file _, some .directory => throw .isADirectory
    | .directory, some .directory =>
      if (fs.below t).isEmpty then return fs.moveTree s t else throw .directoryNotEmpty
    | _, _ => return fs.moveTree s t

end FileSystem

end DslBindings
