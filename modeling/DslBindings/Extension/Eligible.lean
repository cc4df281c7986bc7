import DslBindings.Extension.Callback
import DslBindings.Naming

/-!
# Eligible methods

Which methods get an extension function, and what their callback parameter is.
-/

namespace DslBindings

/-- The function type of one parameter. -/
def function1Name : String := "kotlin.jvm.functions.Function1"

/-- The callback that a method takes last. -/
structure Callback where
  /-- The name of the callback interface. -/
  className : String
  /-- Its type argument. -/
  argument : JvmType
  deriving DecidableEq, Repr, Inhabited

/-- The type of the values that a callback is called with: its type argument without a variance. -/
def Callback.receiver (c : Callback) : JvmType :=
  match c.argument with
  | .unbounded => .object
  | .bounded _ bound => bound
  | t => t

namespace MethodDescriptor

/-- The parameters in front of the last one. -/
def leading (m : MethodDescriptor) : List JvmType := m.signature.parameters.dropLast

/-- The erased types of the parameters in front of the last one. -/
def erasedLeading (m : MethodDescriptor) : List String := m.leading.map JvmType.erasedName

/-- Whether an extension function of the method can be called from outside and declared. -/
def isExtensible (m : MethodDescriptor) : Bool :=
  m.access.isPublic && !m.access.isStatic && !m.access.isSynthetic && !m.access.isBridge
    && m.name.toList.head? ≠ some '<' && Naming.isLegal m.name

/-- The callback that the last parameter is: a callback interface with one type argument. -/
def lastCallback? (callbacks : Callbacks) (m : MethodDescriptor) : Option Callback := do
  let last ← m.signature.parameters.getLast?
  let className ← last.className?
  match last.arguments with
  | [argument] => if callbacks.contains className then some ⟨className, argument⟩ else none
  | _ => none

/-- Whether the method is the overload of another that takes a function in place of its callback. -/
def isClosureOverloadOf (m other : MethodDescriptor) : Bool :=
  m.name = other.name && m.signature.parameters.length = other.signature.parameters.length
    && m.signature.parameters.getLast?.bind JvmType.className? = some function1Name
    && m.erasedLeading = other.erasedLeading

/-- The callback parameter of a method of a class, if the method gets an extension function. -/
def callback? (callbacks : Callbacks) (c : ClassDescriptor) (m : MethodDescriptor) :
    Option Callback :=
  if m.isExtensible && !c.methods.any (·.isClosureOverloadOf m) then m.lastCallback? callbacks
  else none

end MethodDescriptor

namespace JvmType

mutual

/-- The type variables that a type mentions, from left to right. -/
def typeVariables : JvmType → List String
  | .typeVariable name => [name]
  | .generic _ arguments => typeVariablesOfAll arguments
  | .array element => element.typeVariables
  | .bounded _ bound => bound.typeVariables
  | .primitive _ | .plain _ | .unbounded => []

/-- The type variables that the types of a list mention. -/
def typeVariablesOfAll : List JvmType → List String
  | [] => []
  | t :: ts => t.typeVariables ++ typeVariablesOfAll ts

end

end JvmType

namespace MethodSignature

/-- The types of a method signature: parameters, return type and bounds. -/
def types (s : MethodSignature) : List JvmType :=
  s.parameters ++ s.returnType :: s.typeParameters.map TypeParameter.bound

/-- Whether a method signature mentions a type variable that it does not declare. -/
def hasUndeclaredVariable (s : MethodSignature) : Bool :=
  let declared := s.typeParameters.map TypeParameter.name
  (JvmType.typeVariablesOfAll s.types).any fun name => !declared.contains name

end MethodSignature

end DslBindings
