import DslBindings.ClassFile.ConstantPool

/-!
# Attributes

The attributes of class files, fields, methods, code and record components. Nothing is kept of an
attribute but its name and, of a signature, its index; but every attribute of a known name has to be
well formed, because most of them are read by their structure and not by their length. The length
must not reach beyond the end of the file all the same.
-/

namespace DslBindings

/-- An attribute. -/
inductive Attribute
  /-- The generic signature, by its index. -/
  | signature (index : Nat)
  | other (name : String)
  deriving DecidableEq, Repr, Inhabited

namespace Attribute

/-- Passes over a list of values, with their number of two bytes in front. -/
def skipAll (skipOne : ByteReader Unit) : ByteReader Unit := discard (ByteReader.table skipOne)

/-- Passes over the value of an element of an annotation. -/
def skipElement : (limit : Nat) → ByteReader Unit
  | 0 => failure
  | limit + 1 => do
    match Char.ofNat (← ByteReader.u8) with
    | 'B' | 'C' | 'D' | 'F' | 'I' | 'J' | 'S' | 'Z' | 's' | 'c' => ByteReader.skip 2
    | 'e' => ByteReader.skip 4
    | '@' =>
      ByteReader.skip 2
      skipAll do
        ByteReader.skip 2
        skipElement limit
    | '[' => skipAll (skipElement limit)
    | _ => failure

/-- Passes over the type and the elements of an annotation. -/
def skipAnnotation : ByteReader Unit := do
  ByteReader.skip 2
  skipAll do
    ByteReader.skip 2
    ByteReader.nested skipElement

/-- Passes over what an annotation of a type is attached to. -/
def skipTarget : ByteReader Unit := do
  match ← ByteReader.u8 with
  | 0x00 | 0x01 | 0x16 => ByteReader.skip 1
  | 0x10 | 0x11 | 0x12 | 0x17 | 0x42 | 0x43 | 0x44 | 0x45 | 0x46 => ByteReader.skip 2
  | 0x13 | 0x14 | 0x15 => pure ()
  | 0x40 | 0x41 => ByteReader.skipTable 6
  | 0x47 | 0x48 | 0x49 | 0x4A | 0x4B => ByteReader.skip 3
  | _ => failure

/-- Passes over an annotation of a type. -/
def skipTypeAnnotation : ByteReader Unit := do
  skipTarget
  ByteReader.skip ((← ByteReader.u8) * 2)
  skipAnnotation

/-- Passes over a type in a stack map. -/
def skipVerificationType : ByteReader Unit := do
  match ← ByteReader.u8 with
  | 0 | 1 | 2 | 3 | 4 | 5 | 6 => pure ()
  | 7 | 8 => ByteReader.skip 2
  | _ => failure

/-- Passes over a frame of a stack map. -/
def skipFrame : ByteReader Unit := do
  let kind ← ByteReader.u8
  if kind < 64 then pure ()
  else if kind < 128 then skipVerificationType
  else if kind < 247 then failure
  else
    ByteReader.skip 2
    if kind = 247 then skipVerificationType
    else if kind < 252 then pure ()
    else if kind < 255 then discard (ByteReader.times skipVerificationType (kind - 251))
    else
      skipAll skipVerificationType
      skipAll skipVerificationType

/-- Passes over a package that a module exports or opens. -/
def skipExport : ByteReader Unit := do
  ByteReader.skip 4
  ByteReader.skipTable 2

/-- Passes over the declaration of a module. -/
def skipModule : ByteReader Unit := do
  ByteReader.skip 6
  ByteReader.skipTable 6
  skipAll skipExport
  skipAll skipExport
  ByteReader.skipTable 2
  skipAll do
    ByteReader.skip 2
    ByteReader.skipTable 2

/-- The lengths of the attributes that are refused with any other. -/
def fixedLength? : (name : String) → Option Nat
  | "Synthetic" | "Deprecated" => some 0
  | "ConstantValue" | "Signature" | "SourceFile" | "NestHost" | "ModuleMainClass" => some 2
  | "EnclosingMethod" => some 4
  | _ => none

/-- Passes over code, in front of its attributes. -/
def skipCode : ByteReader Unit := do
  ByteReader.skip 4
  ByteReader.skip (← ByteReader.u32)
  ByteReader.skipTable 8

mutual

/-- Passes over what an attribute of no fixed length holds. -/
def skipContent (pool : ConstantPool) (name : String) (length : Nat) :
    (limit : Nat) → ByteReader Unit
  | 0 => failure
  | limit + 1 => do
    match name with
    | "Code" =>
      skipCode
      skipAll (discard (readWithin pool limit))
    | "Record" =>
      skipAll do
        ByteReader.skip 4
        skipAll (discard (readWithin pool limit))
    | "StackMapTable" => skipAll skipFrame
    | "Exceptions" | "ModulePackages" | "NestMembers" | "PermittedSubclasses" =>
      ByteReader.skipTable 2
    | "InnerClasses" => ByteReader.skipTable 8
    | "LineNumberTable" => ByteReader.skipTable 4
    | "LocalVariableTable" | "LocalVariableTypeTable" => ByteReader.skipTable 10
    | "MethodParameters" => ByteReader.skip ((← ByteReader.u8) * 4)
    | "BootstrapMethods" =>
      skipAll do
        ByteReader.skip 2
        ByteReader.skipTable 2
    | "Module" => skipModule
    | "AnnotationDefault" => ByteReader.nested skipElement
    | "RuntimeVisibleAnnotations" | "RuntimeInvisibleAnnotations" => skipAll skipAnnotation
    | "RuntimeVisibleTypeAnnotations" | "RuntimeInvisibleTypeAnnotations" =>
      skipAll skipTypeAnnotation
    | "RuntimeVisibleParameterAnnotations" | "RuntimeInvisibleParameterAnnotations" =>
      discard (ByteReader.times (skipAll skipAnnotation) (← ByteReader.u8))
    | "SourceDebugExtension" =>
      ByteReader.require (ModifiedUtf8.decode? (← ByteReader.bytes length)).isSome
    | _ => ByteReader.skip length

/-- Reads an attribute whose attributes go no deeper than the limit. -/
def readWithin (pool : ConstantPool) : (limit : Nat) → ByteReader Attribute
  | 0 => failure
  | limit + 1 => do
    let name ← pool.text? (← ByteReader.u16)
    let length ← ByteReader.u32
    ByteReader.require (length ≤ (← get).length)
    match fixedLength? name with
    | some n =>
      ByteReader.require (length = n)
      if name = "Signature" then return .signature (← ByteReader.u16)
      ByteReader.skip n
    | none => skipContent pool name length limit
    return .other name

end

/-- Reads an attribute. -/
def read (pool : ConstantPool) : ByteReader Attribute := ByteReader.nested (readWithin pool)

/-- The index of the first signature among attributes. -/
def signatureIndex? (attributes : List Attribute) : Option Nat :=
  attributes.findSome? fun
    | .signature index => some index
    | .other _ => none

end Attribute

end DslBindings
