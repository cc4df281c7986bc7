/-!
# Reading bytes

Readers for binary data. A reader takes bytes from the front of what is left, or fails. Numbers have
their highest byte first unless the name of their reader ends in `le`.
-/

namespace DslBindings

/-- A reader of bytes. -/
abbrev ByteReader := StateT (List UInt8) Option

namespace ByteReader

/-- Reads a byte. -/
def byte : ByteReader UInt8
  | [] => none
  | b :: rest => some (b, rest)

/-- Reads some bytes. -/
def bytes (count : Nat) : ByteReader (List UInt8) := fun s =>
  if count ≤ s.length then some (s.splitAt count) else none

/-- Passes over some bytes. -/
def skip (count : Nat) : ByteReader Unit := discard (bytes count)

/-- The number that bytes are, the highest one first. -/
def value (bytes : List UInt8) : Nat := bytes.foldl (fun n b => n * 256 + b.toNat) 0

/-- Reads a number of one byte. -/
def u8 : ByteReader Nat := UInt8.toNat <$> byte

/-- Reads a number of two bytes. -/
def u16 : ByteReader Nat := value <$> bytes 2

/-- Reads a number of four bytes. -/
def u32 : ByteReader Nat := value <$> bytes 4

/-- Reads a number of two bytes, the lowest one first. -/
def u16le : ByteReader Nat := (fun b => value b.reverse) <$> bytes 2

/-- Reads a number of four bytes, the lowest one first. -/
def u32le : ByteReader Nat := (fun b => value b.reverse) <$> bytes 4

/-- Reads a number of eight bytes, the lowest one first. -/
def u64le : ByteReader Nat := (fun b => value b.reverse) <$> bytes 8

/-- Reads with the same reader a number of times. -/
def times (read : ByteReader α) : (count : Nat) → ByteReader (List α)
  | 0 => pure []
  | n + 1 => do
    let a ← read
    let as ← times read n
    return a :: as

/-- Reads a number of two bytes, and then as many values. -/
def table (read : ByteReader α) : ByteReader (List α) := do times read (← u16)

/-- Passes over a table whose rows have this many bytes. -/
def skipTable (width : Nat) : ByteReader Unit := do skip ((← u16) * width)

/-- Goes on only if a condition holds. -/
def require (condition : Bool) : ByteReader Unit := guard condition

/--
Reads a value that can hold values of the same kind. The limit on how deep they go, the number of
bytes that are left, is never met by a reader that uses a byte before it goes one level down.
-/
def nested (read : (limit : Nat) → ByteReader α) : ByteReader α := do read (← get).length

end ByteReader

end DslBindings
