import DslBindings.Archive.Method

/-!
# Failures of file operations
-/

namespace DslBindings

/-- Why a file operation failed. -/
inductive IoError
  | notFound
  | alreadyExists
  | notADirectory
  | isADirectory
  | directoryNotEmpty
  /-- A directory cannot be moved into itself. -/
  | intoItself
  /-- Bytes that were to be text are not UTF-8. -/
  | notUtf8
  /-- Data from an archive do not have their checksum. -/
  | checksumMismatch
  /-- Data from an archive are not what their method of compression makes. -/
  | corruptData (method : Compression)
  /-- Data from an archive end too early. -/
  | unexpectedEnd
  /-- A path that holds a colon cannot be one of a list separated by colons. -/
  | separatorInPath
  /-- A name, or a path as a whole, has too many bytes. -/
  | nameTooLong
  /-- A path holds the character that ends paths. -/
  | nulInPath
  /-- An argument of a program holds the character that ends arguments. -/
  | nulInArgument
  deriving DecidableEq, Repr, Inhabited

namespace IoError

/-- A failure in words. -/
def message : IoError → String
  | .notFound => "No such file or directory (os error 2)"
  | .alreadyExists => "File exists (os error 17)"
  | .notADirectory => "Not a directory (os error 20)"
  | .isADirectory => "Is a directory (os error 21)"
  | .directoryNotEmpty => "Directory not empty (os error 39)"
  | .intoItself => "Invalid argument (os error 22)"
  | .notUtf8 => "stream did not contain valid UTF-8"
  | .checksumMismatch => "Invalid checksum"
  | .corruptData method => method.fault
  | .unexpectedEnd => "unexpected end of file"
  | .separatorInPath => "path segment contains separator `:`"
  | .nameTooLong => "File name too long (os error 36)"
  | .nulInPath => "file name contained an unexpected NUL byte"
  | .nulInArgument => "nul byte found in provided data"

end IoError

end DslBindings
