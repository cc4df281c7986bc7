import DslBindings.ByteReader
import DslBindings.ClassFile.ModifiedUtf8

/-!
# Constant pools

The table of constants at the front of a class file. Its indexes start with one, and a number of
eight bytes takes two of them.
-/

namespace DslBindings

/-- What is at an index of a constant pool. -/
inductive Constant
  | text (value : String)
  /-- A class, by the index of its name. -/
  | classNamed (nameIndex : Nat)
  /-- A constant of which only the length matters. -/
  | other
  /-- The second index of a number of eight bytes. -/
  | unusable
  deriving DecidableEq, Repr, Inhabited

/-- A constant pool, from index one on. -/
structure ConstantPool where
  constants : List Constant
  deriving DecidableEq, Repr, Inhabited

namespace ConstantPool

/-- The constant at an index. -/
def constant? (pool : ConstantPool) : (index : Nat) → Option Constant
  | 0 => none
  | i + 1 => pool.constants[i]?

/-- The text at an index. -/
def text? (pool : ConstantPool) (index : Nat) : Option String :=
  match pool.constant? index with
  | some (.text value) => some value
  | _ => none

/-- The name of the class at an index. -/
def className? (pool : ConstantPool) (index : Nat) : Option String :=
  match pool.constant? index with
  | some (.classNamed nameIndex) => pool.text? nameIndex
  | _ => none

/-- Reads a constant. -/
def readConstant : ByteReader (List Constant) := do
  match ← ByteReader.u8 with
  | 1 =>
    let spelling ← ByteReader.bytes (← ByteReader.u16)
    return [.text (← ModifiedUtf8.decode? spelling)]
  | 7 => return [.classNamed (← ByteReader.u16)]
  | 3 | 4 | 9 | 10 | 11 | 12 | 17 | 18 =>
    ByteReader.skip 4
    return [.other]
  | 5 | 6 =>
    ByteReader.skip 8
    return [.other, .unusable]
  | 8 | 16 | 19 | 20 =>
    ByteReader.skip 2
    return [.other]
  | 15 =>
    let kind ← ByteReader.u8
    ByteReader.require (1 ≤ kind && kind ≤ 9)
    ByteReader.skip 2
    return [.other]
  | _ => failure

/-- Reads constants for this many indexes. The last constant may take one more. -/
def readConstants : (indexes : Nat) → ByteReader (List Constant)
  | 0 => pure []
  | n + 1 => do
    let constants ← readConstant
    match constants with
    | [_, _] => return constants ++ (← readConstants (n - 1))
    | _ => return constants ++ (← readConstants n)

/-- Reads a constant pool, with the number of its indexes plus one in front of it. -/
def read : ByteReader ConstantPool := do
  let count ← ByteReader.u16
  ByteReader.require (count ≠ 0)
  return ⟨← readConstants (count - 1)⟩

end ConstantPool

end DslBindings
