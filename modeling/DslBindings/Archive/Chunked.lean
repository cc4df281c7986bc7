import DslBindings.Archive.ChainCoding
import DslBindings.Archive.Checksum

/-!
# Chunked data

A container for data in chain coding: a header, blocks with checksums, and an index of the blocks. A
block consists of chunks, which go on with what the chunks before have left, or start anew.
-/

namespace DslBindings.Chunked

open Decompression ChainCoding

/-! ### Chunks -/

/-- A block while its chunks are taken. -/
structure Progress where
  /-- What was put out before the dictionary was last emptied. -/
  done : Array UInt8
  /-- The properties, if a chunk has told them for this dictionary. -/
  properties : Option Properties
  /-- What the next chunk goes on with. The bytes it has put out are the dictionary. -/
  state : ChainCoding.State

namespace Progress

/-- The progress with an empty dictionary. The next chunk in chain coding tells the properties. -/
def emptied (done : Array UInt8) : Progress :=
  ⟨done, none, ChainCoding.State.start { bytes := [], range := 0, code := 0, chances := ∅ }⟩

/-- The bytes so far. -/
def output (p : Progress) : Array UInt8 := p.done ++ p.state.output

/-- The progress with chances and distances as at the start. -/
def anew (p : Progress) : Progress :=
  { p with
    state := { ChainCoding.State.start { p.state.source with chances := ∅ } with
      output := p.state.output } }

/-- Takes a chunk of bytes as they are. -/
def takePlain (p : Progress) : ByteStep Progress := do
  let size ← ByteStep.highFirst 2
  let bytes ← ByteStep.bytes (size + 1)
  return { p with state := { p.state with output := p.state.output ++ bytes.toArray } }

/-- Takes decisions for a chunk of this size from its bytes, and uses them up. -/
def undo (p : Progress) (window size : Nat) (bytes : List UInt8) : Except Stop Progress := do
  let some properties := p.properties | throw .corrupt
  if bytes.length < 5 then throw .corrupt
  let source ← RangeCode.Source.start p.state.source.chances bytes
  let start := { p.state with source }
  let (_, s) ← (items properties window (start.output.size + size) (size + 1)).run start
  let left := s.source.normalize
  if left.bytes.isEmpty && left.code = 0 then return { p with state := s } else throw .corrupt

/-- Takes a chunk in chain coding, which starts anew or not as its first byte tells. -/
def takeCoded (p : Progress) (window first : Nat) : ByteStep Progress := do
  let size := ((first % 32) <<< 16) + (← ByteStep.highFirst 2) + 1
  let length := (← ByteStep.highFirst 2) + 1
  let p ←
    if first < 0xC0 then pure p
    else pure { p with properties := Properties.ofByte? (← ByteStep.number 1) }
  let p := if first < 0xA0 then p else p.anew
  p.undo window size (← ByteStep.bytes length)

end Progress

/-- Takes chunks up to the end of a block. Each uses a byte, so the limit is never met. -/
def chunksFrom (window : Nat) : (limit : Nat) → Progress → ByteStep (Array UInt8)
  | 0, _ => throw .truncated
  | limit + 1, p => do
    let first ← ByteStep.number 1
    if first = 0 then return p.output
    let p := if first = 1 || 0xE0 ≤ first then Progress.emptied p.output else p
    if first < 3 then chunksFrom window limit (← p.takePlain)
    else if first < 0x80 then throw .corrupt
    else chunksFrom window limit (← p.takeCoded window first)

/-- Takes the chunks of a block. The first one begins with an empty dictionary. -/
def chunks (window : Nat) : ByteStep (Array UInt8) := do
  let bytes ← get
  let first := (bytes.headD 0).toNat
  ByteStep.require (first < 2 || 0xE0 ≤ first)
  chunksFrom window (bytes.length + 1) (Progress.emptied #[])

/-! ### Blocks -/

/-- How what a block holds is checked. -/
inductive Check
  | none
  | narrow
  | wide
  /-- In a way that is passed over. -/
  | long
  deriving DecidableEq, Repr, Inhabited

namespace Check

/-- The check that a number stands for. -/
def ofNumber? : Nat → Option Check
  | 0 => some .none
  | 1 => some .narrow
  | 4 => some .wide
  | 10 => some .long
  | _ => Option.none

/-- How many bytes a check has. -/
def size : Check → Nat
  | .none => 0
  | .narrow => 4
  | .wide => 8
  | .long => 32

/-- Whether this is the check of bytes. -/
def accepts (c : Check) (sum : Nat) (bytes : List UInt8) : Bool :=
  match c with
  | .none | .long => true
  | .narrow => sum = (Checksum.ofBytes bytes).toNat
  | .wide => sum = (Checksum.wide bytes).toNat

end Check

/-- Takes the checksum of these bytes. -/
def sumOf (bytes : List UInt8) : ByteStep Unit := do
  ByteStep.require ((← ByteStep.number 4) = (Checksum.ofBytes bytes).toNat)

/-- Takes a number of at most nine bytes, of which each but the last one has its highest bit set. -/
def long : (limit : Nat) → ByteStep Nat
  | 0 => throw .corrupt
  | limit + 1 => do
    let b ← ByteStep.number 1
    if b < 128 then return b else return b - 128 + 128 * (← long limit)

/-- Takes zeros up to a multiple of four bytes behind so many. -/
def padding (length : Nat) : ByteStep Unit := do
  ByteStep.require ((← ByteStep.number ((4 - length % 4) % 4)) = 0)

/-- What the index says of a block. -/
structure Record where
  /-- The bytes of the block but for zeros at its end. -/
  length : Nat
  size : Nat
  deriving DecidableEq, Repr, Inhabited

/-- The size of the dictionary that a byte of the header stands for. -/
def windowOf? (b : Nat) : Option Nat :=
  if 40 < b then none
  else if b = 40 then some 0xFFFFFFFF
  else some ((2 + b % 2) <<< (b / 2 + 11))

/-- What the header of a block says of it. -/
structure Header where
  length : Option Nat
  size : Option Nat
  window : Nat
  deriving DecidableEq, Repr, Inhabited

/-- Takes what is in the header of a block, which has chain coding alone and ends with zeros. -/
def headerFields : ByteStep Header := do
  let flags ← ByteStep.number 1
  ByteStep.require (flags % 64 = 0)
  let length ← if flags.testBit 6 then some <$> long 9 else pure none
  let size ← if flags.testBit 7 then some <$> long 9 else pure none
  ByteStep.require ((← long 9) = 0x21)
  ByteStep.require ((← long 9) = 1)
  let some window := windowOf? (← ByteStep.number 1) | throw .corrupt
  ByteStep.require ((← get).all (· = 0))
  return { length, size, window }

/-- Takes a block whose header has `quarters + 1` times four bytes. -/
def block (check : Check) (quarters : Nat) : ByteStep (Array UInt8 × Record) := do
  let fields ← ByteStep.bytes (quarters * 4 - 1)
  sumOf (UInt8.ofNat quarters :: fields)
  let header ← headerFields.run' fields
  let before := (← get).length
  let output ← chunks header.window
  let length := before - (← get).length
  ByteStep.require (header.length.all (· = length) && header.size.all (· = output.size))
  padding length
  ByteStep.require (check.accepts (← ByteStep.number check.size) output.toList)
  return (output, ⟨(quarters + 1) * 4 + length + check.size, output.size⟩)

/-- Takes what an index says of so many blocks. -/
def records : (count : Nat) → ByteStep (List Record)
  | 0 => return []
  | n + 1 => do
    let record ← Record.mk <$> long 9 <*> long 9
    return record :: (← records n)

/-- The bytes that a step takes. -/
def taken (step : ByteStep Unit) : ByteStep (List UInt8) := do
  let before ← get
  step
  return before.take (before.length - (← get).length)

/-- Takes the index of these blocks, and gives how many bytes it has. -/
def index (blocks : List Record) : ByteStep Nat := do
  let bytes ← taken do
    let fields ← taken do
      ByteStep.require ((← ByteStep.number 1) = 0)
      ByteStep.require ((← long 9) = blocks.length)
      ByteStep.require ((← records blocks.length) = blocks)
    padding fields.length
  sumOf bytes
  return bytes.length + 4

/-- Takes blocks up to the index. Each uses a byte, so the limit is never met. -/
def blocks (check : Check) :
    (limit : Nat) → (output : Array UInt8) → (done : List Record) → ByteStep (Array UInt8 × Nat)
  | 0, _, _ => throw .truncated
  | limit + 1, output, done => do
    match ← get with
    | 0 :: _ => return (output, ← index done)
    | _ =>
      let quarters ← ByteStep.number 1
      let (bytes, record) ← block check quarters
      blocks check limit (output ++ bytes) (done ++ [record])

/-- Takes the two bytes that tell how blocks are checked. -/
def flags : ByteStep (List UInt8 × Check) := do
  let bytes ← ByteStep.bytes 2
  let some check := Check.ofNumber? (value bytes / 256) | throw .corrupt
  ByteStep.require (bytes.head? = some 0)
  return (bytes, check)

/-- Takes a header, blocks, their index, and a footer that says the same as the header. -/
def stream : ByteStep (List UInt8) := do
  ByteStep.require ((← ByteStep.bytes 6) = [0xFD, 0x37, 0x7A, 0x58, 0x5A, 0x00])
  let (bytes, check) ← flags
  sumOf bytes
  let (output, indexSize) ← blocks check ((← get).length + 1) #[] []
  let sum ← ByteStep.number 4
  let fields ← ByteStep.bytes 6
  ByteStep.require (sum = (Checksum.ofBytes fields).toNat)
  ByteStep.require (value (fields.take 4) = indexSize / 4 - 1 && fields.drop 4 = bytes)
  ByteStep.require ((← ByteStep.bytes 2) = [0x59, 0x5A])
  return output.toList

/-- What bytes decompress to. What follows does not matter. -/
def decompress (bytes : List UInt8) : Except Stop (List UInt8) := stream.run' bytes

end DslBindings.Chunked
