/-!
# Decompressing

What the methods of compression share: the bits that are left, the bytes so far, and steps that take
the ones and add to the others.
-/

namespace DslBindings.Decompression

/-- Why decompressing ended too early. -/
inductive Stop
  /-- There is nothing left. -/
  | truncated
  /-- What is left makes no sense. -/
  | corrupt
  deriving DecidableEq, Repr, Inhabited

/-- A list with the element of a place moved to the front. -/
def movedToFront (list : List α) (place : Nat) : Option (α × List α) :=
  list[place]?.map fun a => (a, a :: list.eraseIdx place)

/-! ### Bytes -/

/-- A step that takes bytes. -/
abbrev ByteStep := StateT (List UInt8) (Except Stop)

/-- The number that bytes are, the lowest one first. -/
def value (bytes : List UInt8) : Nat := bytes.foldr (fun b n => b.toNat + 256 * n) 0

namespace ByteStep

/-- Takes a number of bytes. -/
def bytes (count : Nat) : ByteStep (List UInt8) := fun s =>
  if count ≤ s.length then .ok (s.splitAt count) else .error .truncated

/-- Takes a number that is written in so many bytes, the lowest one first. -/
def number (count : Nat) : ByteStep Nat := value <$> bytes count

/-- Takes a number that is written in so many bytes, the highest one first. -/
def highFirst (count : Nat) : ByteStep Nat := (fun b => value b.reverse) <$> bytes count

/-- Goes on only if a condition holds. -/
def require (condition : Bool) : ByteStep Unit :=
  if condition then return () else throw .corrupt

end ByteStep

/-! ### Bits -/

/-- The bits that are left, the next one first, and the bytes so far. -/
structure State where
  bits : List Bool
  output : Array UInt8

/-- A step of decompressing. -/
abbrev Step := StateT State (Except Stop)

/-- What a step that starts with these bits puts out. -/
def Step.outputOf (step : Step Unit) (bits : List Bool) : Except Stop (List UInt8) :=
  (fun (_, s) => s.output.toList) <$> step.run { bits, output := #[] }

/-- The eight bits of a byte, the lowest one first. -/
def bitsOfByte (b : UInt8) : List Bool := (List.range 8).map fun i => b.toNat.testBit i

/-- The bits of bytes, in each the lowest one first. -/
def bitsUpwards (bytes : List UInt8) : List Bool := bytes.flatMap bitsOfByte

/-- The bits of bytes, in each the highest one first. -/
def bitsDownwards (bytes : List UInt8) : List Bool := bytes.flatMap fun b => (bitsOfByte b).reverse

/-- Takes a bit. -/
def bit : Step Nat := do
  match (← get).bits with
  | [] => throw .truncated
  | b :: rest =>
    modify fun s => { s with bits := rest }
    return b.toNat

/-- Takes a number of some bits, the lowest one first. -/
def number : (width : Nat) → Step Nat
  | 0 => return 0
  | n + 1 => do
    let low ← bit
    let high ← number n
    return low + 2 * high

/-- Takes a number of some bits, the highest one first, behind those that `high` stands for. -/
def wordBehind (high : Nat) : (width : Nat) → Step Nat
  | 0 => return high
  | n + 1 => do wordBehind (2 * high + (← bit)) n

/-- Takes a number of some bits, the highest one first. -/
def word (width : Nat) : Step Nat := wordBehind 0 width

/-- Takes bytes that have to be these. -/
def mark : (bytes : List Nat) → Step Unit
  | [] => return ()
  | b :: rest => do
    if (← word 8) = b then mark rest else throw .corrupt

/-- Leaves out the bits up to the next whole byte. -/
def align : Step Unit := modify fun s => { s with bits := s.bits.drop (s.bits.length % 8) }

/-- Puts out a byte. -/
def put (b : UInt8) : Step Unit := modify fun s => { s with output := s.output.push b }

/-- Bytes with a number of others behind them, each of which stands some way back. -/
def repeated (distance : Nat) : (count : Nat) → Array UInt8 → Array UInt8
  | 0, bytes => bytes
  | n + 1, bytes => repeated distance n (bytes.push (bytes.getD (bytes.size - distance) 0))

/-- Puts out a number of bytes, each of which stands some way back in the output. -/
def copy (distance count : Nat) : Step Unit := do
  if (← get).output.size < distance then throw .corrupt
  modify fun s => { s with output := repeated distance count s.output }

end DslBindings.Decompression
