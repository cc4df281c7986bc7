import DslBindings.Text.Basic

/-!
# Types of generic signatures

The types that occur in the signatures of compiled classes. A class is named by its dotted binary
name, in which a nested class keeps its `$`.
-/

namespace DslBindings

/-- The primitive types, with `void` among them. -/
inductive PrimitiveType
  | boolean | byte | char | short | int | long | float | double | void
  deriving DecidableEq, Repr, Inhabited

namespace PrimitiveType

/-- All primitive types, in the order in which they are numbered. -/
def all : List PrimitiveType := [boolean, byte, char, short, int, long, float, double, void]

/-- The letter that stands for a primitive type in a descriptor. -/
def descriptor : PrimitiveType → Char
  | boolean => 'Z'
  | byte => 'B'
  | char => 'C'
  | short => 'S'
  | int => 'I'
  | long => 'J'
  | float => 'F'
  | double => 'D'
  | void => 'V'

/-- The primitive type of a descriptor letter. -/
def ofDescriptor? (c : Char) : Option PrimitiveType := all.find? fun p => p.descriptor = c

/-- The keyword of a primitive type in source text. -/
def keyword : PrimitiveType → String
  | boolean => "boolean"
  | byte => "byte"
  | char => "char"
  | short => "short"
  | int => "int"
  | long => "long"
  | float => "float"
  | double => "double"
  | void => "void"

@[simp] theorem mem_all (p : PrimitiveType) : p ∈ all := by cases p <;> decide

@[simp] theorem ofDescriptor?_descriptor (p : PrimitiveType) : ofDescriptor? p.descriptor = some p := by
  cases p <;> decide

end PrimitiveType

/-- The side on which a wildcard is bounded. -/
inductive Variance
  /-- A wildcard that extends its bound. -/
  | out
  /-- A wildcard that is a supertype of its bound. -/
  | into
  deriving DecidableEq, Repr, Inhabited

/-- A type of a generic signature. -/
inductive JvmType
  | primitive (type : PrimitiveType)
  /-- A class without type arguments. -/
  | plain (name : String)
  /-- A class with type arguments. -/
  | generic (definition : String) (arguments : List JvmType)
  | typeVariable (name : String)
  | array (element : JvmType)
  /-- The type argument without a bound. -/
  | unbounded
  /-- A type argument bounded on one side. -/
  | bounded (variance : Variance) (bound : JvmType)
  deriving Repr, Inhabited

/-- The universal top type, which bounds a type parameter that declares no bound. -/
def objectName : String := "java.lang.Object"

namespace JvmType

mutual

/-- Whether two types are the same. -/
def same : (a b : JvmType) → Bool
  | .primitive p, .primitive q => p = q
  | .plain m, .plain n | .typeVariable m, .typeVariable n => m = n
  | .generic m as, .generic n bs => m = n && sameAll as bs
  | .array s, .array t => same s t
  | .unbounded, .unbounded => true
  | .bounded v s, .bounded w t => v = w && same s t
  | _, _ => false

/-- Whether two lists hold the same types. -/
def sameAll : (as bs : List JvmType) → Bool
  | [], [] => true
  | a :: as, b :: bs => same a b && sameAll as bs
  | _, _ => false

end

mutual

theorem same_iff (a b : JvmType) : same a b = true ↔ a = b := by
  cases a <;> cases b <;> simp [same, same_iff, sameAll_iff]

theorem sameAll_iff (as bs : List JvmType) : sameAll as bs = true ↔ as = bs := by
  cases as <;> cases bs <;> simp [sameAll, same_iff, sameAll_iff]

end

instance : DecidableEq JvmType := fun a b => decidable_of_iff _ (same_iff a b)

/-- The universal top type. -/
def object : JvmType := .plain objectName

/-- Whether a type is `void`. -/
def isVoid (t : JvmType) : Bool := t = .primitive .void

/-- The name of the class that a type refers to, whatever its arguments. -/
def className? : JvmType → Option String
  | .plain name | .generic name _ => some name
  | _ => none

/-- The type arguments of a class type. -/
def arguments : JvmType → List JvmType
  | .generic _ arguments => arguments
  | _ => []

/-- A dotted binary name as source text spells it. -/
def sourceName (name : String) : String := Text.replaceChar '$' '.' name

/--
The erasure of a type, as source text spells it. A type variable erases to the top type, because the
bound that it was declared with is not at hand.
-/
def erasedName : JvmType → String
  | .primitive p => p.keyword
  | .plain name | .generic name _ => sourceName name
  | .typeVariable _ | .unbounded | .bounded _ _ => objectName
  | .array element => element.erasedName ++ "[]"

mutual

/-- A type as it is shown in messages. -/
def display : JvmType → String
  | .primitive p => p.keyword
  | .plain name | .typeVariable name => name
  | .generic definition arguments =>
    definition ++ "<" ++ ", ".intercalate (displayAll arguments) ++ ">"
  | .array element => element.display ++ "[]"
  | .unbounded => "?"
  | .bounded .out bound => "? extends " ++ bound.display
  | .bounded .into bound => "? super " ++ bound.display

/-- Shows each type of a list. -/
def displayAll : List JvmType → List String
  | [] => []
  | t :: ts => t.display :: displayAll ts

end

end JvmType

end DslBindings
