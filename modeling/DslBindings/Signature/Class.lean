import DslBindings.Signature.Type

/-!
# Descriptors of classes and methods

What the generators know of a compiled class: its name, its access flags, its generic signature and
its methods.
-/

namespace DslBindings

/-- The declaration of a type parameter. A parameter without a bound is bounded by the top type. -/
structure TypeParameter where
  name : String
  bound : JvmType
  deriving DecidableEq, Repr, Inhabited

/-- Whether the bound of a type parameter says nothing. -/
def TypeParameter.isUnbounded (p : TypeParameter) : Bool :=
  p.bound.className? = some objectName && p.bound.arguments.isEmpty

/-- The generic signature of a class. -/
structure ClassSignature where
  typeParameters : List TypeParameter
  superClass : Option JvmType
  interfaces : List JvmType
  deriving DecidableEq, Repr, Inhabited

/-- The generic signature of a method. -/
structure MethodSignature where
  typeParameters : List TypeParameter
  parameters : List JvmType
  returnType : JvmType
  deriving DecidableEq, Repr, Inhabited

/-- The access flags of a class or of a method. -/
structure Access where
  bits : UInt16
  deriving DecidableEq, Repr, Inhabited

namespace Access

/-- Whether all flags of `b` are set in `a`. -/
def contains (a b : Access) : Bool := a.bits &&& b.bits = b.bits

/-- The flags of both. -/
def union (a b : Access) : Access := ⟨a.bits ||| b.bits⟩

def isPublic (a : Access) : Bool := a.contains ⟨0x0001⟩
def isStatic (a : Access) : Bool := a.contains ⟨0x0008⟩
def isBridge (a : Access) : Bool := a.contains ⟨0x0040⟩
def isInterface (a : Access) : Bool := a.contains ⟨0x0200⟩
def isAbstract (a : Access) : Bool := a.contains ⟨0x0400⟩
def isSynthetic (a : Access) : Bool := a.contains ⟨0x1000⟩

end Access

/-- A method of a class. -/
structure MethodDescriptor where
  name : String
  signature : MethodSignature
  access : Access
  deriving DecidableEq, Repr, Inhabited

/-- The erased parameter types of a method, as its documentation is looked up by them. -/
def MethodDescriptor.erasedParameters (m : MethodDescriptor) : List String :=
  m.signature.parameters.map JvmType.erasedName

/-- A compiled class. -/
structure ClassDescriptor where
  /-- The dotted binary name. -/
  name : String
  access : Access
  /-- The generic signature. A class whose class file records none has none. -/
  signature : Option ClassSignature
  methods : List MethodDescriptor
  deriving DecidableEq, Repr, Inhabited

namespace ClassDescriptor

/-- The type parameters that a class declares. -/
def typeParameters (c : ClassDescriptor) : List TypeParameter :=
  match c.signature with
  | some signature => signature.typeParameters
  | none => []

/-- Whether a class declares a type parameter. -/
def isGeneric (c : ClassDescriptor) : Bool := !c.typeParameters.isEmpty

/-- The name of a class as source text spells it. -/
def sourceName (c : ClassDescriptor) : String := JvmType.sourceName c.name

end ClassDescriptor

end DslBindings
