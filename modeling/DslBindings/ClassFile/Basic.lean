import DslBindings.ClassFile.Attribute

/-!
# Class files

A class file as it is read, with the names and types of its members still given by indexes into its
constant pool.
-/

namespace DslBindings

/-- A field or a method of a class file. -/
structure Member where
  access : Nat
  nameIndex : Nat
  descriptorIndex : Nat
  attributes : List Attribute
  deriving DecidableEq, Repr, Inhabited

/-- A class file. -/
structure ClassFile where
  pool : ConstantPool
  access : Nat
  /-- The index of the class itself. -/
  thisClass : Nat
  fields : List Member
  methods : List Member
  attributes : List Attribute
  deriving DecidableEq, Repr, Inhabited

namespace ClassFile

/-- Whether the descriptor of a field is well formed. Nothing is asked of what follows a letter. -/
def isFieldDescriptor : List Char → Bool
  | 'L' :: rest => 2 ≤ rest.length && rest.getLast? = some ';'
  | '[' :: rest => isFieldDescriptor rest
  | c :: _ => ['B', 'C', 'D', 'F', 'I', 'J', 'S', 'Z'].contains c
  | [] => false

/-- Whether there are class files of a version. -/
def isVersion (major minor : Nat) : Bool :=
  45 ≤ major && major ≤ 69 && (major < 56 || minor = 0 || minor = 65535)

/-- The flags that a class can have. -/
def classFlags : Nat := 0xF631

/-- The flags that a method can have. -/
def methodFlags : Nat := 0x1DFF

/-- Reads a field or a method. -/
def readMember (pool : ConstantPool) : ByteReader Member := do
  return ⟨← ByteReader.u16, ← ByteReader.u16, ← ByteReader.u16,
    ← ByteReader.table (Attribute.read pool)⟩

/-- Whether a field has a well-formed descriptor. -/
def isField (pool : ConstantPool) (field : Member) : Bool :=
  match pool.text? field.descriptorIndex with
  | some descriptor => isFieldDescriptor descriptor.toList
  | none => false

/-- Reads a class file. -/
def read : ByteReader ClassFile := do
  ByteReader.require ((← ByteReader.u32) = 0xCAFEBABE)
  let minor ← ByteReader.u16
  let major ← ByteReader.u16
  ByteReader.require (isVersion major minor)
  let pool ← ConstantPool.read
  let access ← ByteReader.u16
  let thisClass ← ByteReader.u16
  ByteReader.skip 2
  ByteReader.skipTable 2
  let fields ← ByteReader.table (readMember pool)
  ByteReader.require (fields.all (isField pool))
  let methods ← ByteReader.table (readMember pool)
  let attributes ← ByteReader.table (Attribute.read pool)
  return { pool, access, thisClass, fields, methods, attributes }

/-- The class file at the front of these bytes. -/
def ofBytes? (bytes : List UInt8) : Option ClassFile := (read.run bytes).map (·.1)

end ClassFile

end DslBindings
