import DslBindings.Signature.Class

/-!
# Types in generated source

How the types of the signature model are spelled in the generated declarations.
-/

namespace DslBindings.Rendering

/-- The classes that have a counterpart of another name, with that name. -/
def mappedClasses : List (String × String) :=
  [("java.lang.Object", "Any"),
   ("java.lang.String", "String"),
   ("java.lang.CharSequence", "CharSequence"),
   ("java.lang.Number", "Number"),
   ("java.lang.Boolean", "Boolean"),
   ("java.lang.Byte", "Byte"),
   ("java.lang.Character", "Char"),
   ("java.lang.Short", "Short"),
   ("java.lang.Integer", "Int"),
   ("java.lang.Long", "Long"),
   ("java.lang.Float", "Float"),
   ("java.lang.Double", "Double"),
   ("java.lang.Void", "Unit"),
   ("java.lang.Iterable", "kotlin.collections.Iterable"),
   ("java.util.Iterator", "kotlin.collections.MutableIterator"),
   ("java.util.Collection", "kotlin.collections.MutableCollection"),
   ("java.util.List", "kotlin.collections.MutableList"),
   ("java.util.Set", "kotlin.collections.MutableSet"),
   ("java.util.Map", "kotlin.collections.MutableMap"),
   ("java.util.Map$Entry", "kotlin.collections.MutableMap.MutableEntry")]

def primitive : PrimitiveType → String
  | .boolean => "Boolean"
  | .byte => "Byte"
  | .char => "Char"
  | .short => "Short"
  | .int => "Int"
  | .long => "Long"
  | .float => "Float"
  | .double => "Double"
  | .void => "Unit"

/-- The spelling of a class: its counterpart's, or its own name in source text. -/
def className (name : String) : String := (mappedClasses.lookup name).getD (JvmType.sourceName name)

mutual

/-- The spelling of a type. An array of a primitive type has a class of its own. -/
def type : JvmType → String
  | .primitive p => primitive p
  | .plain name => className name
  | .generic definition arguments =>
    className definition ++ "<" ++ ", ".intercalate (types arguments) ++ ">"
  | .typeVariable name => name
  | .array (.primitive .void) => "Array<" ++ primitive .void ++ ">"
  | .array (.primitive p) => primitive p ++ "Array"
  | .array element => "Array<" ++ type element ++ ">"
  | .unbounded => "*"
  | .bounded .out bound => "out " ++ type bound
  | .bounded .into bound => "in " ++ type bound

/-- The spellings of the types of a list. -/
def types : List JvmType → List String
  | [] => []
  | t :: ts => type t :: types ts

end

/-- The spelling of a type parameter with its bound, if that says something. -/
def typeParameter (p : TypeParameter) : String :=
  if p.isUnbounded then p.name else p.name ++ " : " ++ type p.bound

/-- A list of type parameters between angle brackets, or nothing if there are none. -/
def typeParameters : List TypeParameter → String
  | [] => ""
  | ps => "<" ++ ", ".intercalate (ps.map typeParameter) ++ ">"

end DslBindings.Rendering
