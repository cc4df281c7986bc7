import DslBindings.Text.Basic

/-!
# Scopes

Which class files a scan reads. A scope names packages and classes by the start of their dotted
names, and a start ends where a segment of a name does.
-/

namespace DslBindings

/-- The starts of the dotted names that are scanned. Without one to include, all are. -/
structure Scope where
  included : List String
  excluded : List String
  deriving DecidableEq, Repr, Inhabited

namespace Scope

/-- Whether a dotted name starts with the segments of another. -/
def isUnder (dotted start : List Char) : Bool :=
  match Text.afterPrefix? start dotted with
  | some [] | some ('.' :: _) => true
  | _ => false

/-- Whether a part of a simple name is what the compiler names a class without a name of its own. -/
def startsWithDigit : List Char → Bool
  | c :: _ => c.isDigit
  | [] => false

/-- Whether a simple name is that of a class that sources can name. -/
def isNameable (simple : List Char) : Bool :=
  simple ≠ "package-info".toList && simple ≠ "module-info".toList
    && !((simple.splitOn '$').drop 1).any startsWithDigit

/-- The dotted name of the class of a class file. -/
def dotted (stem : List Char) : List Char := stem.map fun c => if c = '/' then '.' else c

/-- Whether a dotted name is in a scope. -/
def covers (s : Scope) (name : List Char) : Bool :=
  (s.included.isEmpty || s.included.any fun start => isUnder name start.toList)
    && !s.excluded.any fun start => isUnder name start.toList

/-- Whether the file of this name in an archive or in a directory is read. -/
def accepts (s : Scope) (entryName : String) : Bool :=
  match Text.beforeSuffix? ".class".toList entryName.toList with
  | none => false
  | some stem =>
    isNameable (Text.lastPiece '/' stem) && !"META-INF/".toList.isPrefixOf stem
      && s.covers (dotted stem)

end Scope

end DslBindings
