import DslBindings.ClassFile.Basic
import DslBindings.Signature.Reader

/-!
# Descriptors of class files

A class file is converted as a whole or not at all. The steps are its name, its signature, and then
method by method the name, the descriptor and the signature; the first step that fails gives the
error.

A method has the types of its generic signature if that has as many parameters as the descriptor, as
it has not where the compiler added parameters of its own, and the types of the descriptor otherwise.
-/

namespace DslBindings

/-- Why a class file has no descriptor. -/
inductive ClassFileError
  /-- The file is malformed, or an index in it leads nowhere. -/
  | format (entry : String)
  /-- A signature or the descriptor of a method is malformed. -/
  | signature (entry : String) (error : SignatureError)
  deriving DecidableEq, Repr, Inhabited

namespace ClassFileError

/-- An error in words. -/
def message : ClassFileError → String
  | .format entry => "Malformed class file " ++ entry
  | .signature entry e => "Malformed signature in " ++ entry ++ ": " ++ e.message

end ClassFileError

namespace ClassFile

/-- The name of a method in errors. -/
def methodEntry (entry name : String) : String := entry ++ "#" ++ name

/-- The text at an index of the constant pool of the file named `entry`. -/
def text (file : ClassFile) (entry : String) (index : Nat) : Except ClassFileError String :=
  match file.pool.text? index with
  | some text => .ok text
  | none => .error (.format entry)

/-- What a signature of the file spells, with the name that an error gives. -/
def parsed (entry : String) (result : Except SignatureError α) : Except ClassFileError α :=
  result.mapError (.signature entry)

/-- The dotted name of the class. -/
def className (file : ClassFile) (entry : String) : Except ClassFileError String :=
  match file.pool.className? file.thisClass with
  | some name => .ok (Text.replaceChar '/' '.' name)
  | none => .error (.format entry)

/-- The generic signature among attributes, as it is spelled. -/
def signatureText (file : ClassFile) (entry : String) (attributes : List Attribute) :
    Except ClassFileError (Option String) :=
  match Attribute.signatureIndex? attributes with
  | some index => (file.text entry index).map some
  | none => .ok none

/-- The generic signature of the class. -/
def classSignature (file : ClassFile) (entry : String) :
    Except ClassFileError (Option ClassSignature) := do
  match ← file.signatureText entry file.attributes with
  | some text => return some (← parsed entry (ClassSignature.parse text))
  | none => return none

/-- A generic signature if it has as many parameters as a descriptor, else the descriptor. -/
def trusted (generic descriptor : MethodSignature) : MethodSignature :=
  if generic.parameters.length = descriptor.parameters.length then generic else descriptor

/-- The types of a method of this name. -/
def methodSignature (file : ClassFile) (entry name : String) (m : Member) :
    Except ClassFileError MethodSignature := do
  let text ← file.text entry m.descriptorIndex
  let descriptor ← parsed (methodEntry entry name) (MethodSignature.parse text)
  match ← file.signatureText entry m.attributes with
  | some text =>
    return trusted (← parsed (methodEntry entry name) (MethodSignature.parse text)) descriptor
  | none => return descriptor

/-- The descriptor of a method. -/
def method (file : ClassFile) (entry : String) (m : Member) :
    Except ClassFileError MethodDescriptor := do
  let name ← file.text entry m.nameIndex
  let signature ← file.methodSignature entry name m
  return ⟨name, signature, ⟨UInt16.ofNat (m.access &&& methodFlags)⟩⟩

/-- The descriptor of the class, where `entry` names its file in errors. -/
def descriptor (file : ClassFile) (entry : String) : Except ClassFileError ClassDescriptor := do
  let name ← file.className entry
  let signature ← file.classSignature entry
  let methods ← file.methods.mapM (file.method entry)
  return ⟨name, ⟨UInt16.ofNat (file.access &&& classFlags)⟩, signature, methods⟩

end ClassFile

/-- The class whose class file has these bytes, where `entry` names the file in errors. -/
def ClassDescriptor.ofBytes (entry : String) (bytes : List UInt8) :
    Except ClassFileError ClassDescriptor :=
  match ClassFile.ofBytes? bytes with
  | some file => file.descriptor entry
  | none => .error (.format entry)

end DslBindings
