import DslBindings.Archive.Basic
import DslBindings.ClassFile.Conversion
import DslBindings.ClassPath.Scope
import DslBindings.Files.FileSystem

/-!
# Scanning a class path

The entries of a class path are directories with class files and archives. First the class files in
scope are collected, in the order of the class path; what cannot be opened fails the whole scan.
Then they are converted; what cannot be converted is left out. The result has the public classes in
the order of their names, and of those of one name the first.
-/

namespace DslBindings

/-- A class file that a scan has found. -/
structure FoundClass where
  /-- Its name in the archive or directory. -/
  name : String
  content : List UInt8
  deriving DecidableEq, Repr, Inhabited

/-- Why a class path cannot be scanned. -/
inductive ScanError
  | io (path : Path) (error : IoError)
  | archive (path : Path)
  deriving DecidableEq, Repr, Inhabited

namespace ScanError

/-- An error in words. -/
def message : ScanError → String
  | .io path e => "I/O error on " ++ path.text ++ ": " ++ e.message
  | .archive path => "Failed to read archive " ++ path.text ++ ": invalid archive"

/-- What an error was caused by, in words. -/
def causes : ScanError → List String
  | .io _ e => [e.message]
  | .archive _ => ["invalid archive"]

end ScanError

namespace Archive.Entry.DataError

/-- The failure to read a file that a failure to read an entry is. -/
def toIoError : Archive.Entry.DataError → IoError
  | .truncated => .unexpectedEnd
  | .corrupt method => .corruptData method
  | .checksum => .checksumMismatch

end Archive.Entry.DataError

namespace Scope

/-- The class files in a directory that are in scope. -/
def inDirectory (s : Scope) (fs : FileSystem) (location : Location) : List FoundClass :=
  (fs.filesBelow location).filterMap fun (names, content) =>
    let name := "/".intercalate names
    if s.accepts name then some ⟨name, content⟩ else none

/-- The class file that an entry of an archive is, if it is one in scope. Every entry is opened. -/
def ofArchiveEntry (s : Scope) (path : Path) (file : List UInt8) (e : Archive.Entry) :
    Except ScanError (Option FoundClass) := do
  match e.data? file with
  | none => throw (.archive path)
  | some (method, data) =>
    if e.isDirectory || !s.accepts e.name then return none
    match e.content method data with
    | .ok content => return some ⟨e.name, content⟩
    | .error error => throw (.io (path.joinText e.name) error.toIoError)

/-- The class files in an archive that are in scope. -/
def inArchive (s : Scope) (path : Path) (file : List UInt8) : Except ScanError (List FoundClass) := do
  match Archive.entries? file with
  | none => throw (.archive path)
  | some entries => return (← entries.mapM (s.ofArchiveEntry path file)).filterMap id

/-- The class files of an entry of a class path that are in scope. -/
def inClassPathEntry (s : Scope) (fs : FileSystem) (path : Path) :
    Except ScanError (List FoundClass) :=
  match fs.visit path with
  | .ok (location, .directory) => .ok (s.inDirectory fs location)
  | .ok (_, .file content) => s.inArchive path content
  | .error e => .error (.io path e)

/-- The class files of a class path that are in scope. -/
def found (s : Scope) (fs : FileSystem) (classPath : List Path) :
    Except ScanError (List FoundClass) :=
  List.flatten <$> classPath.mapM (s.inClassPathEntry fs)

end Scope

namespace FoundClass

/-- The class of a class file, if it can be converted. -/
def descriptor? (f : FoundClass) : Option ClassDescriptor :=
  (ClassDescriptor.ofBytes f.name f.content).toOption

end FoundClass

namespace ClassDescriptor

/-- Whether a class is one for sources to use. -/
def isVisible (c : ClassDescriptor) : Bool := c.access.isPublic && !c.access.isSynthetic

/-- Classes without those that have the name of the one in front of them. -/
def withoutRepetitions : List ClassDescriptor → List ClassDescriptor
  | [] => []
  | c :: cs => c :: (withoutRepetitions cs).dropWhile (·.name = c.name)

/-- Classes in the order of their names, and of those of one name the first. -/
def sorted (classes : List ClassDescriptor) : List ClassDescriptor :=
  withoutRepetitions (classes.mergeSort fun a b => a.name ≤ b.name)

end ClassDescriptor

/-- The visible classes among class files, in the order of their names. -/
def FoundClass.classes (found : List FoundClass) : List ClassDescriptor :=
  ClassDescriptor.sorted ((found.filterMap FoundClass.descriptor?).filter ClassDescriptor.isVisible)

/-- The classes of a class path that are in scope. -/
def Scope.scan (s : Scope) (fs : FileSystem) (classPath : List Path) :
    Except ScanError (List ClassDescriptor) :=
  FoundClass.classes <$> s.found fs classPath

end DslBindings
