import Std.Data.ExtTreeSet
import DslBindings.Signature.Class

/-!
# Callback interfaces

The interfaces whose single abstract method takes a value of the interface's type parameter and
returns nothing. A lambda with a receiver can stand for a value of one.
-/

namespace DslBindings

/-- The callback interface that is always known. -/
def actionName : String := "org.gradle.api.Action"

/-- The methods that a value of an interface has to implement. -/
def ClassDescriptor.abstractMethods (c : ClassDescriptor) : List MethodDescriptor :=
  c.methods.filter fun m => m.access.isAbstract && !m.access.isStatic

/-- Whether a method takes one value, of the type variable of this name, and returns nothing. -/
def MethodDescriptor.consumes (m : MethodDescriptor) (variableName : String) : Bool :=
  m.signature.parameters = [.typeVariable variableName] && m.signature.returnType.isVoid

/-- Whether a class is a callback interface. -/
def ClassDescriptor.isCallback (c : ClassDescriptor) : Bool :=
  c.access.isInterface &&
    match c.typeParameters, c.abstractMethods with
    | [p], [m] => m.consumes p.name
    | _, _ => false

/-- The names of the callback interfaces. -/
abbrev Callbacks := Std.ExtTreeSet String

namespace Callbacks

/-- The callback interface that is always known, and no other. -/
def default : Callbacks := Std.ExtTreeSet.ofList [actionName]

/-- The callback interfaces among these classes, and the one that is always known. -/
def ofClasses (classes : List ClassDescriptor) : Callbacks :=
  (classes.filter ClassDescriptor.isCallback).foldl (fun names c => names.insert c.name) default

end Callbacks

end DslBindings
